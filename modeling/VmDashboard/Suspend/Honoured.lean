import VmDashboard.Suspend.Sweep

/-!
# Schedules are honoured

A row never has two power jobs for one boundary, however the passes end. A pass over the boundaries
of a schedule acts on the last of them exactly when the schedule has a suspend time and no row it
loads before raises.
-/

namespace Suspend
open Machine (Table)
open Python (Instant Json Dict minutes dayLength weekday)
open Windows (TimeLibrary parseHhmm normalizeDays resolveTimezone)

variable {lib : TimeLibrary} {azureRg : String} {now : Instant}

/-! ### One row of the loop -/

/-- The schedule of a row is walked, and one of its columns does not parse. -/
structure Raises (lib : TimeLibrary) (now : Instant) (row : DeployRow) : Prop where
  kept : (field row.job.metadata "destroyed").truthy = false
  schedulable : (schedulable row.job.jobType row.job.metadata).1 = true
  scheduled : hasSchedule row.schedule = true
  window : ∃ last, row.scheduleLastCheckedAt = some last ∧ last < now ∧ now - last ≤ maxCatchup
  unreadable : ¬Readable lib row.schedule

theorem isOk_of_crossings {schedule : Schedule} {zone : Windows.Zone} {days : String}
    {start last : Instant} {allow : List Action} {action : Action} {cs : List Crossing}
    (h : crossings schedule zone days start last allow action = .ok cs) :
    (parseHhmm (schedule.timeOf action)).isOk = true := by
  obtain ⟨parsed, hparse, -⟩ := Machine.bind_eq_ok h
  rw [hparse]
  rfl

/-- An evaluation raises when it walks a schedule that does not parse, and only then. -/
theorem dueCrossing_error_iff {schedule : Schedule} {checked : Option Instant} :
    (∃ e, dueCrossing lib schedule checked now bothActions = .error e) ↔
      hasSchedule schedule = true ∧
        (∃ last, checked = some last ∧ last < now ∧ now - last ≤ maxCatchup) ∧
        ¬Readable lib schedule := by
  constructor
  · rintro ⟨e, h⟩
    have hhas : hasSchedule schedule = true := by
      by_contra hnone
      unfold dueCrossing at h
      rw [if_neg hnone] at h
      cases h
    cases checked with
    | none =>
      unfold dueCrossing at h
      rw [if_pos hhas] at h
      cases h
    | some last =>
      have hlast : last < now := by
        by_contra hle
        unfold dueCrossing at h
        simp only [if_pos hhas, if_pos (not_lt.mp hle)] at h
        cases h
      have hspan : now - last ≤ maxCatchup := by
        by_contra hfar
        unfold dueCrossing at h
        simp only [if_pos hhas, if_neg (not_le.mpr hlast), if_pos (not_le.mp hfar)] at h
        cases h
      refine ⟨hhas, ⟨last, rfl, hlast, hspan⟩, fun hread => ?_⟩
      obtain ⟨zone, days, parsed, -, -, -, heq⟩ := dueCrossing_eq hread hhas bothActions hlast hspan
      rw [heq] at h
      cases h
  · rintro ⟨hhas, ⟨last, rfl, hlast, hspan⟩, hunreadable⟩
    cases h : dueCrossing lib schedule (some last) now bothActions with
    | error e => exact ⟨e, rfl⟩
    | ok c =>
      refine absurd ?_ hunreadable
      unfold dueCrossing at h
      simp only [if_pos hhas, if_neg (not_le.mpr hlast), if_neg (not_lt.mpr hspan)] at h
      obtain ⟨zone, hzone, h⟩ := Machine.bind_eq_ok h
      obtain ⟨days, hdays, h⟩ := Machine.bind_eq_ok h
      obtain ⟨suspends, hsuspends, h⟩ := Machine.bind_eq_ok h
      obtain ⟨resumes, hresumes, -⟩ := Machine.bind_eq_ok h
      refine ⟨?_, ?_, isOk_of_crossings hsuspends, isOk_of_crossings hresumes⟩
      · rw [hzone]
        rfl
      · rw [hdays]
        rfl

def Session.consider (session : Session) (id : String) : Session :=
  { session with considered := session.considered ++ [id] }

def Session.skip (session : Session) (id reason : String) : Session :=
  { session with skipped := session.skipped ++ [(id, reason)] }

/-- The power job of a crossing of the row's schedule. -/
def enqueuedFor (azureRg : String) (row : DeployRow) (c : Crossing) : Enqueued :=
  ⟨powerRequest azureRg row c.2, row.id, c⟩

/-- Everything the body of the loop can do. -/
theorem sweepRow_cases (lib : TimeLibrary) (azureRg : String) (now : Instant) (row : DeployRow)
    (session : Session) :
    ((field row.job.metadata "destroyed").truthy = true ∧
        sweepRow lib azureRg now row session = .ok session) ∨
      (field row.job.metadata "destroyed").truthy = false ∧
        (((schedulable row.job.jobType row.job.metadata).1 = false ∧ ∃ reason,
            sweepRow lib azureRg now row session =
              .ok ((session.consider row.id).skip row.id reason)) ∨
          (schedulable row.job.jobType row.job.metadata).1 = true ∧
            ((∃ e, dueCrossing lib row.schedule row.scheduleLastCheckedAt now bothActions = .error e ∧
                sweepRow lib azureRg now row session = .error e) ∨
              (dueCrossing lib row.schedule row.scheduleLastCheckedAt now bothActions = .ok none ∧
                sweepRow lib azureRg now row session =
                  .ok ((session.consider row.id).stamped now row.id)) ∨
              ∃ c, dueCrossing lib row.schedule row.scheduleLastCheckedAt now bothActions =
                  .ok (some c) ∧
                sweepRow lib azureRg now row session =
                  .ok (((session.consider row.id).stamped now row.id).createJob
                    (enqueuedFor azureRg row c)))) := by
  unfold sweepRow
  cases hdestroyed : (field row.job.metadata "destroyed").truthy with
  | true => exact .inl ⟨rfl, rfl⟩
  | false =>
    refine .inr ⟨rfl, ?_⟩
    rw [if_neg nofun]
    cases hpolicy : schedulable row.job.jobType row.job.metadata with
    | mk ok reason =>
      cases ok with
      | false => exact .inl ⟨rfl, reason, rfl⟩
      | true =>
        refine .inr ⟨rfl, ?_⟩
        cases hdue : dueCrossing lib row.schedule row.scheduleLastCheckedAt now bothActions with
        | error e => exact .inl ⟨e, rfl, rfl⟩
        | ok crossing =>
          cases crossing with
          | none => exact .inr (.inl ⟨rfl, rfl⟩)
          | some c => exact .inr (.inr ⟨c, rfl, rfl⟩)

theorem sweepRow_error_iff {row : DeployRow} {session : Session} :
    (∃ e, sweepRow lib azureRg now row session = .error e) ↔ Raises lib now row := by
  rcases sweepRow_cases lib azureRg now row session with
    ⟨hdestroyed, h⟩ | ⟨hkept, ⟨hrefused, reason, h⟩ | ⟨hok, ⟨e, hdue, h⟩ | ⟨hdue, h⟩ | ⟨c, hdue, h⟩⟩⟩
  · refine iff_of_false (by rw [h]; rintro ⟨e, he⟩; cases he) fun hraises => ?_
    exact absurd hraises.kept (by rw [hdestroyed]; nofun)
  · refine iff_of_false (by rw [h]; rintro ⟨e, he⟩; cases he) fun hraises => ?_
    exact absurd hraises.schedulable (by rw [hrefused]; nofun)
  · obtain ⟨hhas, hwindow, hread⟩ := dueCrossing_error_iff.mp ⟨e, hdue⟩
    exact iff_of_true ⟨e, h⟩ ⟨hkept, hok, hhas, hwindow, hread⟩
  · refine iff_of_false (by rw [h]; rintro ⟨e, he⟩; cases he) fun hraises => ?_
    obtain ⟨e, he⟩ := dueCrossing_error_iff.mpr
      ⟨hraises.scheduled, hraises.window, hraises.unreadable⟩
    rw [hdue] at he
    cases he
  · refine iff_of_false (by rw [h]; rintro ⟨e, he⟩; cases he) fun hraises => ?_
    obtain ⟨e, he⟩ := dueCrossing_error_iff.mpr
      ⟨hraises.scheduled, hraises.window, hraises.unreadable⟩
    rw [hdue] at he
    cases he

/-! ### At most one job for a boundary -/

/-- No boundary of the row after its latch has a job. -/
def Latched (jobs : List Enqueued) (row : DeployRow) : Prop :=
  ∀ e ∈ jobs, e.row = row.id → ∀ last, row.scheduleLastCheckedAt = some last → e.crossing.1 ≤ last

structure Recorded (jobs : List Enqueued) (clock : Instant) (rows : Table DeployRow.id) : Prop where
  nodup : (jobs.map fun e => (e.row, e.crossing.1)).Nodup
  past : ∀ e ∈ jobs, e.crossing.1 ≤ clock
  latched : ∀ row ∈ rows.rows, Latched jobs row

theorem latched_stamp {jobs : List Enqueued} (hpast : ∀ e ∈ jobs, e.crossing.1 ≤ now)
    (row : DeployRow) : Latched jobs (row.stamp now) := by
  intro e he _ last hlast
  obtain rfl : now = last := Option.some.inj hlast
  exact hpast e he

theorem Recorded.stamped {jobs : List Enqueued} {rows : Table DeployRow.id}
    (h : Recorded jobs now rows) (id : String) :
    Recorded jobs now (rows.modify id (DeployRow.stamp now) fun _ => rfl) := by
  refine ⟨h.nodup, h.past, fun row hrow => ?_⟩
  rcases Table.mem_modify.mp hrow with ⟨old, -, -, rfl⟩ | ⟨hold, -⟩
  · exact latched_stamp h.past old
  · exact h.latched row hold

/-- A job is added for a boundary after the latch of its row, and the row is stamped with it. -/
theorem Recorded.enqueued {jobs : List Enqueued} {rows : Table DeployRow.id} {row : DeployRow}
    (h : Recorded jobs now rows) (hrow : Latched jobs row) {c : Crossing}
    (hinside : Interval row.scheduleLastCheckedAt now c.1) :
    Recorded (jobs ++ [enqueuedFor azureRg row c]) now
      (rows.modify row.id (DeployRow.stamp now) fun _ => rfl) := by
  obtain ⟨last, hlast, hafter, hnow, -⟩ := hinside
  have hpast : ∀ e ∈ jobs ++ [enqueuedFor azureRg row c], e.crossing.1 ≤ now := by
    intro e he
    rcases List.mem_append.mp he with he | he
    · exact h.past e he
    · rw [List.mem_singleton.mp he]
      exact hnow
  refine ⟨?_, hpast, fun other hother => ?_⟩
  · rw [List.map_append, List.nodup_append]
    refine ⟨h.nodup, List.nodup_singleton _, ?_⟩
    rintro key hkey _ hnew rfl
    obtain ⟨e, he, heq⟩ := List.mem_map.mp hkey
    obtain ⟨hid, ht⟩ := Prod.mk.inj (heq.trans (List.mem_singleton.mp hnew))
    have hle := hrow e he hid last hlast
    exact absurd (ht ▸ hle) (not_le.mpr hafter)
  · rcases Table.mem_modify.mp hother with ⟨old, -, -, rfl⟩ | ⟨hold, hne⟩
    · exact latched_stamp hpast old
    · intro e he hid
      rcases List.mem_append.mp he with he | he
      · exact h.latched other hold e he hid
      · rw [List.mem_singleton.mp he] at hid
        exact absurd hid.symm hne

/-- Rows that are written without a new latch. -/
theorem Recorded.of_rows {jobs : List Enqueued} {clock clock' : Instant}
    {rows rows' : Table DeployRow.id} (h : Recorded jobs clock rows) (hclock : clock ≤ clock')
    (hrows : ∀ row' ∈ rows'.rows, row'.scheduleLastCheckedAt = none ∨
      ∃ row ∈ rows.rows, row'.id = row.id ∧
        row'.scheduleLastCheckedAt = row.scheduleLastCheckedAt) : Recorded jobs clock' rows' := by
  refine ⟨h.nodup, fun e he => (h.past e he).trans hclock, fun row' hrow' e he hid last hlast => ?_⟩
  rcases hrows row' hrow' with hnone | ⟨row, hrow, hsame, hlatch⟩
  · rw [hnone] at hlast
    cases hlast
  · exact h.latched row hrow e he (hid.trans hsame) last (hlatch ▸ hlast)

/-- Half way through a pass, with the rows of `rest` still to come. -/
structure Underway (now : Instant) (rest : List DeployRow) (session : Session) : Prop where
  committed : Recorded session.committed.jobs now session.committed.rows
  pending : Recorded session.committed.jobs now session.rows
  loaded : ∀ row ∈ rest, Latched session.committed.jobs row
  distinct : (rest.map DeployRow.id).Nodup

theorem Underway.next {row : DeployRow} {rest : List DeployRow} {session session' : Session}
    (h : Underway now (row :: rest) session)
    (hsweep : sweepRow lib azureRg now row session = .ok session') : Underway now rest session' := by
  obtain ⟨hfresh, hdistinct⟩ := List.nodup_cons.mp h.distinct
  have hrest : ∀ r ∈ rest, Latched session.committed.jobs r :=
    fun r hr => h.loaded r (List.mem_cons_of_mem _ hr)
  rcases sweepRow_cases lib azureRg now row session with
    ⟨-, heq⟩ | ⟨-, ⟨-, reason, heq⟩ | ⟨-, ⟨e, -, heq⟩ | ⟨-, heq⟩ | ⟨c, hdue, heq⟩⟩⟩
  · obtain rfl := Except.ok.inj (heq.symm.trans hsweep)
    exact ⟨h.committed, h.pending, hrest, hdistinct⟩
  · obtain rfl := Except.ok.inj (heq.symm.trans hsweep)
    exact ⟨h.committed, h.pending, hrest, hdistinct⟩
  · cases heq.symm.trans hsweep
  · obtain rfl := Except.ok.inj (heq.symm.trans hsweep)
    exact ⟨h.committed, h.pending.stamped row.id, hrest, hdistinct⟩
  · obtain rfl := Except.ok.inj (heq.symm.trans hsweep)
    have hnew : Recorded (session.committed.jobs ++ [enqueuedFor azureRg row c]) now
        (session.rows.modify row.id (DeployRow.stamp now) fun _ => rfl) :=
      h.pending.enqueued (h.loaded row List.mem_cons_self) (dueCrossing_some hdue).2
    refine ⟨hnew, hnew, fun r hr e he hid => ?_, hdistinct⟩
    rcases List.mem_append.mp he with he | he
    · exact hrest r hr e he hid
    · rw [List.mem_singleton.mp he] at hid
      exact absurd (List.mem_map.mpr ⟨r, hr, hid.symm⟩) hfresh

theorem sweepRows_of_error {row : DeployRow} {session : Session} {e : String}
    (h : sweepRow lib azureRg now row session = .error e) (rows : List DeployRow) :
    sweepRows lib azureRg now (row :: rows) session = (session, some e) := by
  rw [sweepRows, h]

theorem sweepRows_of_ok {row : DeployRow} {session session' : Session}
    (h : sweepRow lib azureRg now row session = .ok session') (rows : List DeployRow) :
    sweepRows lib azureRg now (row :: rows) session = sweepRows lib azureRg now rows session' := by
  rw [sweepRows, h]

theorem Underway.atEnd {rows : List DeployRow} {session : Session} (h : Underway now rows session)
    (lib : TimeLibrary) (azureRg : String) :
    Underway now [] (sweepRows lib azureRg now rows session).1 := by
  induction rows generalizing session with
  | nil => exact h
  | cons row rows ih =>
    cases hsweep : sweepRow lib azureRg now row session with
    | error e =>
      rw [sweepRows_of_error hsweep]
      exact ⟨h.committed, h.pending, List.forall_mem_nil _, List.nodup_nil⟩
    | ok session' =>
      rw [sweepRows_of_ok hsweep]
      exact ih (h.next hsweep)

theorem nodup_scheduledVms (rows : Table DeployRow.id) :
    ((scheduledVms rows).map DeployRow.id).Nodup :=
  rows.nodup.sublist (List.filter_sublist.map DeployRow.id)

theorem reached_sublist (cut : Option ℕ) (rows : Table DeployRow.id) :
    List.Sublist (reached cut rows) (scheduledVms rows) := by
  cases cut with
  | none => exact List.Sublist.refl _
  | some n => exact List.take_sublist n _

theorem run_cases (lib : TimeLibrary) (azureRg : String) (now : Instant) (cut : Option ℕ) (db : Db) :
    let session := (sweepRows lib azureRg now (reached cut db.rows) (opened db)).1
    run lib azureRg now cut db = ⟨session, session.committed, false⟩ ∨
      run lib azureRg now cut db =
          ⟨session, { session.committed with rows := session.rows }, true⟩ ∧
        cut = none ∧ (sweepRows lib azureRg now (reached cut db.rows) (opened db)).2 = none := by
  unfold run
  cases hloop : sweepRows lib azureRg now (reached cut db.rows) (opened db) with
  | mk session error =>
    cases error with
    | some e => exact .inl rfl
    | none =>
      cases cut with
      | none => exact .inr ⟨rfl, rfl, rfl⟩
      | some n => exact .inl rfl

theorem Recorded.run {db : Db} (h : Recorded db.jobs now db.rows) (cut : Option ℕ) :
    Recorded (run lib azureRg now cut db).db.jobs now (run lib azureRg now cut db).db.rows := by
  have hsub := reached_sublist cut db.rows
  have hstart : Underway now (reached cut db.rows) (opened db) :=
    ⟨h, h, fun row hrow => h.latched row (List.mem_of_mem_filter (hsub.subset hrow)),
      (nodup_scheduledVms db.rows).sublist (hsub.map DeployRow.id)⟩
  have hend := hstart.atEnd lib azureRg
  rcases run_cases lib azureRg now cut db with heq | ⟨heq, -, -⟩
  · rw [heq]
    exact hend.committed
  · rw [heq]
    exact hend.pending

/-! ### What a pass writes -/

/-- The rows with stamps of `now` on some of them. -/
def Stamped (now : Instant) (rows rows' : Table DeployRow.id) : Prop :=
  ∀ row' ∈ rows'.rows, ∃ row ∈ rows.rows, row' = row ∨ row' = row.stamp now

theorem stamp_stamp (row : DeployRow) : (row.stamp now).stamp now = row.stamp now := rfl

theorem Stamped.stamp {rows rows' : Table DeployRow.id} (h : Stamped now rows rows') (id : String) :
    Stamped now rows (rows'.modify id (DeployRow.stamp now) fun _ => rfl) := by
  intro row hrow
  rcases Table.mem_modify.mp hrow with ⟨old, hold, -, rfl⟩ | ⟨hold, -⟩
  · obtain ⟨first, hfirst, rfl | rfl⟩ := h old hold
    · exact ⟨old, hfirst, .inr rfl⟩
    · exact ⟨first, hfirst, .inr (stamp_stamp first)⟩
  · exact h row hold

/-- A property of a session that the body of the loop keeps. -/
def Kept (lib : TimeLibrary) (azureRg : String) (now : Instant) (P : Session → Prop) : Prop :=
  ∀ row session session', sweepRow lib azureRg now row session = .ok session' → P session → P session'

/-- It is kept when each of the three writes of the body keeps it. -/
theorem kept_of {P : Session → Prop}
    (hconsider : ∀ session id, P session → P (session.consider id))
    (hskip : ∀ session id reason, P session → P (session.skip id reason))
    (hstamp : ∀ session id, P session → P (session.stamped now id))
    (hcreate : ∀ session e, P session → P (session.createJob e)) : Kept lib azureRg now P := by
  intro row session session' hsweep h
  rcases sweepRow_cases lib azureRg now row session with
    ⟨-, heq⟩ | ⟨-, ⟨-, reason, heq⟩ | ⟨-, ⟨e, -, heq⟩ | ⟨-, heq⟩ | ⟨c, -, heq⟩⟩⟩
  · obtain rfl := Except.ok.inj (heq.symm.trans hsweep)
    exact h
  · obtain rfl := Except.ok.inj (heq.symm.trans hsweep)
    exact hskip _ _ _ (hconsider _ _ h)
  · cases heq.symm.trans hsweep
  · obtain rfl := Except.ok.inj (heq.symm.trans hsweep)
    exact hstamp _ _ (hconsider _ _ h)
  · obtain rfl := Except.ok.inj (heq.symm.trans hsweep)
    exact hcreate _ _ (hstamp _ _ (hconsider _ _ h))

theorem Kept.atEnd {P : Session → Prop} (hkept : Kept lib azureRg now P) (rows : List DeployRow)
    (session : Session) (h : P session) : P (sweepRows lib azureRg now rows session).1 := by
  induction rows generalizing session with
  | nil => exact h
  | cons row rows ih =>
    cases hsweep : sweepRow lib azureRg now row session with
    | error e =>
      rw [sweepRows_of_error hsweep]
      exact h
    | ok session' =>
      rw [sweepRows_of_ok hsweep]
      exact ih session' (hkept row session session' hsweep h)

/-- What the body establishes at a row holds at the end, when no row in front of it raises. -/
theorem Kept.reaches {P : Session → Prop} (hkept : Kept lib azureRg now P) {row : DeployRow}
    (hmakes : ∀ session, ∃ session', sweepRow lib azureRg now row session = .ok session' ∧ P session')
    {rows : List DeployRow} (hrow : row ∈ rows) (honly : ∀ r ∈ rows, r.id = row.id → r = row)
    (hbefore : ∀ r ∈ rows.takeWhile (fun r => r.id ≠ row.id), ¬Raises lib now r)
    (session : Session) : P (sweepRows lib azureRg now rows session).1 := by
  induction rows generalizing session with
  | nil => cases hrow
  | cons first rows ih =>
    by_cases hid : first.id = row.id
    · obtain rfl := honly first List.mem_cons_self hid
      obtain ⟨session', hsweep, hP⟩ := hmakes session
      rw [sweepRows_of_ok hsweep]
      exact hkept.atEnd rows session' hP
    · rw [List.takeWhile_cons_of_pos (by simpa using hid)] at hbefore
      have hrest : row ∈ rows :=
        (List.mem_cons.mp hrow).resolve_left fun heq => hid (congrArg DeployRow.id heq.symm)
      cases hsweep : sweepRow lib azureRg now first session with
      | error e =>
        exact absurd (sweepRow_error_iff.mp ⟨e, hsweep⟩) (hbefore first List.mem_cons_self)
      | ok session' =>
        rw [sweepRows_of_ok hsweep]
        exact ih hrest (fun r hr => honly r (List.mem_cons_of_mem _ hr))
          (fun r hr => hbefore r (List.mem_cons_of_mem _ hr)) session'

theorem considered_sweepRow {row : DeployRow} {session session' : Session}
    (h : sweepRow lib azureRg now row session = .ok session') :
    session'.considered = session.considered ∨
      session'.considered = session.considered ++ [row.id] := by
  rcases sweepRow_cases lib azureRg now row session with
    ⟨-, heq⟩ | ⟨-, ⟨-, reason, heq⟩ | ⟨-, ⟨e, -, heq⟩ | ⟨-, heq⟩ | ⟨c, -, heq⟩⟩⟩
  · exact .inl (Except.ok.inj (heq.symm.trans h) ▸ rfl)
  · exact .inr (Except.ok.inj (heq.symm.trans h) ▸ rfl)
  · cases heq.symm.trans h
  · exact .inr (Except.ok.inj (heq.symm.trans h) ▸ rfl)
  · exact .inr (Except.ok.inj (heq.symm.trans h) ▸ rfl)

/-- A row that is considered was loaded, and no row in front of it raises. -/
theorem of_considered {id : String} {rows : List DeployRow} {session : Session}
    (hnew : id ∉ session.considered)
    (h : id ∈ (sweepRows lib azureRg now rows session).1.considered) :
    (∃ r ∈ rows, r.id = id) ∧ ∀ r ∈ rows.takeWhile (fun r => r.id ≠ id), ¬Raises lib now r := by
  induction rows generalizing session with
  | nil => exact absurd h hnew
  | cons first rows ih =>
    by_cases hid : first.id = id
    · refine ⟨⟨first, List.mem_cons_self, hid⟩, ?_⟩
      rw [List.takeWhile_cons_of_neg (by simpa using hid)]
      exact fun r hr => absurd hr List.not_mem_nil
    · cases hsweep : sweepRow lib azureRg now first session with
      | error e =>
        rw [sweepRows_of_error hsweep] at h
        exact absurd h hnew
      | ok session' =>
        rw [sweepRows_of_ok hsweep] at h
        have hnew' : id ∉ session'.considered := by
          rcases considered_sweepRow hsweep with heq | heq
          · rw [heq]
            exact hnew
          · rw [heq, List.mem_append, List.mem_singleton]
            exact fun hin => hin.elim hnew fun hfirst => hid hfirst.symm
        obtain ⟨⟨r, hr, hrid⟩, hbefore⟩ := ih hnew' h
        refine ⟨⟨r, List.mem_cons_of_mem _ hr, hrid⟩, ?_⟩
        rw [List.takeWhile_cons_of_pos (by simpa using hid)]
        intro r hr
        rcases List.mem_cons.mp hr with rfl | hr
        · intro hraises
          obtain ⟨e, he⟩ := sweepRow_error_iff.mpr hraises
          cases he.symm.trans hsweep
        · exact hbefore r hr

theorem not_raises_of_ended {rows : List DeployRow} {session : Session}
    (h : (sweepRows lib azureRg now rows session).2 = none) : ∀ r ∈ rows, ¬Raises lib now r := by
  induction rows generalizing session with
  | nil => exact fun r hr => absurd hr List.not_mem_nil
  | cons first rows ih =>
    cases hsweep : sweepRow lib azureRg now first session with
    | error e =>
      rw [sweepRows_of_error hsweep] at h
      cases h
    | ok session' =>
      rw [sweepRows_of_ok hsweep] at h
      intro r hr
      rcases List.mem_cons.mp hr with rfl | hr
      · intro hraises
        obtain ⟨e, he⟩ := sweepRow_error_iff.mpr hraises
        cases he.symm.trans hsweep
      · exact ih h r hr

theorem stamped_run (cut : Option ℕ) (db : Db) :
    Stamped now db.rows (run lib azureRg now cut db).db.rows := by
  have hkept : Kept lib azureRg now fun session =>
      Stamped now db.rows session.rows ∧ Stamped now db.rows session.committed.rows :=
    kept_of (fun _ _ h => h) (fun _ _ _ h => h) (fun _ id h => ⟨h.1.stamp id, h.2⟩)
      fun _ _ h => ⟨h.1, h.1⟩
  have hstart : Stamped now db.rows db.rows := fun row hrow => ⟨row, hrow, .inl rfl⟩
  have hend := hkept.atEnd (reached cut db.rows) (opened db) ⟨hstart, hstart⟩
  rcases run_cases lib azureRg now cut db with heq | ⟨heq, -, -⟩
  · rw [heq]
    exact hend.2
  · rw [heq]
    exact hend.1

theorem mem_scheduledVms {rows : Table DeployRow.id} {row : DeployRow} (hrow : row ∈ rows.rows)
    (hlive : row.live = true) (hsuspend : row.schedule.suspendAtLocal.isSome = true) :
    row ∈ scheduledVms rows := by
  obtain ⟨hdeployed, -⟩ := Bool.and_eq_true_iff.mp hlive
  exact List.mem_filter.mpr ⟨hrow, Bool.and_eq_true_iff.mpr ⟨hdeployed, hsuspend⟩⟩

theorem kept_of_live {row : DeployRow} (h : row.live = true) :
    (field row.job.metadata "destroyed").truthy = false := by
  obtain ⟨-, hkept⟩ := Bool.and_eq_true_iff.mp h
  simpa using hkept

theorem only_one {rows : Table DeployRow.id} {row : DeployRow} (hrow : row ∈ rows.rows) :
    ∀ r ∈ scheduledVms rows, r.id = row.id → r = row :=
  fun _ hr hid => Table.eq_of_key (List.mem_of_mem_filter hr) hrow hid

/-- A pass that comes to its end has stamped every watched row with a suspend time. -/
theorem stamped_of_ended {cut : Option ℕ} {db : Db} {row : DeployRow}
    (hended : (run lib azureRg now cut db).ended = true) (hrow : row ∈ db.rows.rows)
    (hwatched : row.watched = true) (hsuspend : row.schedule.suspendAtLocal.isSome = true) :
    ∀ row' ∈ (run lib azureRg now cut db).db.rows.rows, row'.id = row.id →
      row'.scheduleLastCheckedAt = some now := by
  rcases run_cases lib azureRg now cut db with heq | ⟨heq, rfl, hended⟩
  · rw [heq] at hended
    cases hended
  · rw [heq]
    obtain ⟨hlive, -⟩ := Bool.and_eq_true_iff.mp hwatched
    obtain ⟨hlive, hschedulable⟩ := Bool.and_eq_true_iff.mp hlive
    have hloaded := mem_scheduledVms hrow hlive hsuspend
    have hquiet := not_raises_of_ended hended
    let P : Session → Prop := fun session =>
      ∀ row' ∈ session.rows.rows, row'.id = row.id → row'.scheduleLastCheckedAt = some now
    have hstamp : ∀ session : Session, P (session.stamped now row.id) := by
      intro session row' hrow' hid
      rcases Table.of_modify_mem (stamp_id now) hrow' with ⟨old, -, -, rfl⟩ | ⟨-, hne⟩
      · rfl
      · exact absurd hid hne
    have hkept : Kept lib azureRg now P := by
      refine kept_of (fun _ _ h => h) (fun _ _ _ h => h) (fun session id h row' hrow' hid => ?_)
        fun _ _ h => h
      rcases Table.of_modify_mem (stamp_id now) hrow' with ⟨old, -, -, rfl⟩ | ⟨hold, -⟩
      · rfl
      · exact h row' hold hid
    refine hkept.reaches (fun session => ?_) hloaded (only_one hrow)
      (fun r hr => hquiet r (List.takeWhile_sublist _ |>.subset hr)) (opened db)
    rcases sweepRow_cases lib azureRg now row session with
      ⟨hdestroyed, -⟩ | ⟨-, ⟨hrefused, -⟩ | ⟨-, ⟨e, -, hsweep⟩ | ⟨-, hsweep⟩ | ⟨c, -, hsweep⟩⟩⟩
    · exact absurd (kept_of_live hlive) (by rw [hdestroyed]; nofun)
    · exact absurd hschedulable (by rw [hrefused]; nofun)
    · exact absurd (sweepRow_error_iff.mp ⟨e, hsweep⟩) (hquiet row hloaded)
    · exact ⟨_, hsweep, hstamp _⟩
    · exact ⟨_, hsweep, hstamp _⟩

/-! ### Whole runs -/

/-- The jobs are on record, and a row the sweep loads is answered for until its latch. -/
structure Sound (s : State) : Prop where
  recorded : Recorded s.db.jobs s.clock s.db.rows
  answered : ∀ row ∈ s.db.rows.rows, row.schedule.suspendAtLocal.isSome = true →
    s.answered row.id = row.scheduleLastCheckedAt

theorem sound_empty (clock : Instant) : Sound (State.empty clock) :=
  ⟨⟨List.nodup_nil, List.forall_mem_nil _, List.forall_mem_nil _⟩, List.forall_mem_nil _⟩

theorem Sound.pass {s : State} (h : Sound s) (lib : TimeLibrary) (azureRg : String)
    (cut : Option ℕ) :
    Sound { s with
      db := (run lib azureRg s.clock cut s.db).db
      answered := answeredBy (run lib azureRg s.clock cut s.db) s.clock s.answered } := by
  refine ⟨h.recorded.run cut, fun row' hrow' hsuspend => ?_⟩
  change answeredBy _ _ _ row'.id = _
  have hlookup := Table.lookup_eq_some.mpr ⟨hrow', rfl⟩
  simp only [answeredBy, hlookup]
  by_cases hlatch : row'.scheduleLastCheckedAt = some s.clock
  · rw [if_pos (.inl hlatch), hlatch]
  · obtain ⟨row, hrow, rfl | rfl⟩ := stamped_run cut s.db row' hrow'
    · rw [if_neg]
      · exact h.answered row' hrow hsuspend
      · rintro (hnow | ⟨hended, hwatched⟩)
        · exact hlatch hnow
        · exact hlatch (stamped_of_ended hended hrow hwatched hsuspend row' hrow' rfl)
    · exact absurd rfl hlatch

theorem forget_of_ne (answered : String → Option Instant) {id other : String} (h : other ≠ id) :
    forget answered id other = answered other := if_neg h

theorem sound_step {s t : State} {e : Event} (h : Sound s) (hstep : State.step s e = some t) :
    Sound t := by
  cases e with
  | deploy row =>
    obtain ⟨rows, hinsert, rfl⟩ := Option.map_eq_some_iff.mp hstep
    refine ⟨h.recorded.of_rows le_rfl fun row' hrow' => ?_, fun row' hrow' hsuspend => ?_⟩
    · rcases (Table.mem_insert hinsert).mp hrow' with hold | rfl
      · exact .inr ⟨row', hold, rfl, rfl⟩
      · exact .inl rfl
    · rcases (Table.mem_insert hinsert).mp hrow' with hold | rfl
      · have hne := Table.lookup_eq_none.mp (Table.insert_eq_some hinsert).1 row' hold
        exact (forget_of_ne _ hne).trans (h.answered row' hold hsuspend)
      · cases hsuspend
  | progress job =>
    obtain rfl := Option.some.inj hstep
    refine ⟨h.recorded.of_rows le_rfl fun row' hrow' => ?_, fun row' hrow' hsuspend => ?_⟩
    · rcases Table.of_modify_mem (progressed_id job) hrow' with ⟨old, hold, -, rfl⟩ | ⟨hold, -⟩
      · exact .inr ⟨old, hold, rfl, rfl⟩
      · exact .inr ⟨row', hold, rfl, rfl⟩
    · rcases Table.of_modify_mem (progressed_id job) hrow' with ⟨old, hold, -, rfl⟩ | ⟨hold, -⟩
      · exact h.answered old hold hsuspend
      · exact h.answered row' hold hsuspend
  | delete id =>
    obtain rfl := Option.some.inj hstep
    refine ⟨h.recorded.of_rows le_rfl fun row' hrow' => ?_, fun row' hrow' hsuspend => ?_⟩
    · exact .inr ⟨row', (Table.mem_erase.mp hrow').1, rfl, rfl⟩
    · exact h.answered row' (Table.mem_erase.mp hrow').1 hsuspend
  | setSchedule lib id request pin =>
    obtain rfl := Option.some.inj hstep
    refine ⟨h.recorded.of_rows le_rfl fun row' hrow' => ?_, fun row' hrow' hsuspend => ?_⟩
    · rcases Table.of_modify_mem (setSchedule_id lib request pin) hrow' with
        ⟨old, hold, -, rfl⟩ | ⟨hold, -⟩
      · unfold setSchedule
        rcases trySetSchedule_cases lib request pin old with ⟨metadata, heq⟩ | ⟨metadata, sch, heq⟩
        · exact .inr ⟨old, hold, by rw [heq]; rfl, by rw [heq]; rfl⟩
        · exact .inl (by rw [heq])
      · exact .inr ⟨row', hold, rfl, rfl⟩
    · rcases Table.of_modify_mem (setSchedule_id lib request pin) hrow' with
        ⟨old, hold, hid, rfl⟩ | ⟨hold, hne⟩
      · have hlookup := Table.lookup_eq_some.mpr ⟨hold, hid⟩
        have hsame := setSchedule_id lib request pin old
        rw [hsame, hid]
        unfold setSchedule at hsuspend ⊢
        simp only [hlookup, Option.any_some, granted]
        rcases trySetSchedule_cases lib request pin old with ⟨metadata, heq⟩ | ⟨metadata, sch, heq⟩
        · rw [heq] at hsuspend ⊢
          exact hid ▸ h.answered old hold hsuspend
        · rw [heq]
          exact if_pos rfl
      · have hkeep : s.answered row'.id = row'.scheduleLastCheckedAt := h.answered row' hold hsuspend
        dsimp only
        split_ifs
        · rw [forget_of_ne _ hne, hkeep]
        · exact hkeep
  | clearSchedule id =>
    obtain rfl := Option.some.inj hstep
    refine ⟨h.recorded.of_rows le_rfl fun row' hrow' => ?_, fun row' hrow' hsuspend => ?_⟩
    · rcases Table.of_modify_mem clearSchedule_id hrow' with ⟨old, hold, -, rfl⟩ | ⟨hold, -⟩
      · exact .inl rfl
      · exact .inr ⟨row', hold, rfl, rfl⟩
    · rcases Table.of_modify_mem clearSchedule_id hrow' with ⟨old, hold, -, rfl⟩ | ⟨hold, hne⟩
      · cases hsuspend
      · exact (forget_of_ne _ hne).trans (h.answered row' hold hsuspend)
  | pass lib azureRg cut =>
    obtain rfl := Option.some.inj hstep
    exact h.pass lib azureRg cut
  | wait n =>
    obtain rfl := Option.some.inj hstep
    exact ⟨h.recorded.of_rows (Nat.le_add_right _ _) fun row' hrow' => .inr ⟨row', hrow', rfl, rfl⟩,
      h.answered⟩

theorem sound_of_exec {clock : Instant} {events : List Event} {s : State}
    (h : system.exec (State.empty clock) events = some s) : Sound s :=
  system.always_exec (system.always_of_step (fun _ _ _ hs hstep => sound_step hs hstep) events
    (sound_empty clock)) h

/-- The pass considers the row and, if the VM may carry a schedule, enqueues the power job of the
last boundary. -/
def Honoured (lib : TimeLibrary) (azureRg : String) (s : State) (row : DeployRow) : Prop :=
  row.id ∈ (run lib azureRg s.clock none s.db).session.considered ∧
    ((schedulable row.job.jobType row.job.metadata).1 = true →
      ∃ c, LastBoundary lib row.schedule (s.answered row.id) s.clock c ∧
        enqueuedFor azureRg row c ∈ (run lib azureRg s.clock none s.db).session.acted ∧
        enqueuedFor azureRg row c ∈ (run lib azureRg s.clock none s.db).db.jobs)

/-- The rows the sweep evaluates in front of this one. -/
def earlier (s : State) (row : DeployRow) : List DeployRow :=
  (scheduledVms s.db.rows).takeWhile fun r => r.id ≠ row.id

theorem run_session (lib : TimeLibrary) (azureRg : String) (now : Instant) (cut : Option ℕ)
    (db : Db) :
    (run lib azureRg now cut db).session =
        (sweepRows lib azureRg now (reached cut db.rows) (opened db)).1 ∧
      (run lib azureRg now cut db).db.jobs =
        (sweepRows lib azureRg now (reached cut db.rows) (opened db)).1.committed.jobs := by
  rcases run_cases lib azureRg now cut db with heq | ⟨heq, -, -⟩
  · rw [heq]
    exact ⟨rfl, rfl⟩
  · rw [heq]
    exact ⟨rfl, rfl⟩

theorem loaded_of_honoured {s : State} {row : DeployRow} (hrow : row ∈ s.db.rows.rows)
    (h : Honoured lib azureRg s row) :
    row.schedule.suspendAtLocal.isSome = true ∧ ∀ r ∈ earlier s row, ¬Raises lib s.clock r := by
  have hconsidered := h.1
  rw [(run_session lib azureRg s.clock none s.db).1] at hconsidered
  obtain ⟨⟨r, hr, hid⟩, hbefore⟩ := of_considered List.not_mem_nil hconsidered
  obtain rfl := only_one hrow r hr hid
  have hloaded : r ∈ scheduledVms s.db.rows := hr
  exact ⟨(Bool.and_eq_true_iff.mp (List.mem_filter.mp hloaded).2).2, hbefore⟩

theorem honoured_of_loaded
    (hsteady : ∀ name zone, lib.zoneInfo name = some zone → Steady zone) {s : State}
    (hs : Sound s) {row : DeployRow} (hrow : row ∈ s.db.rows.rows) (hlive : row.live = true)
    (haccepted : Accepted lib row.schedule) {b : Crossing} (hb : Boundary lib row.schedule b)
    (hinside : Interval (s.answered row.id) s.clock b.1)
    (hsuspend : row.schedule.suspendAtLocal.isSome = true)
    (hbefore : ∀ r ∈ earlier s row, ¬Raises lib s.clock r) : Honoured lib azureRg s row := by
  have hanswered := hs.answered row hrow hsuspend
  obtain ⟨c, hdue, hlast⟩ := lastBoundary_of_boundary hsteady (readable_of_accepted haccepted) hb
    (hanswered ▸ hinside)
  let P : Session → Prop := fun session =>
    row.id ∈ session.considered ∧ ((schedulable row.job.jobType row.job.metadata).1 = true →
      enqueuedFor azureRg row c ∈ session.acted ∧
        enqueuedFor azureRg row c ∈ session.committed.jobs)
  have hkept : Kept lib azureRg s.clock P := by
    refine kept_of (fun session id h => ⟨List.mem_append_left _ h.1, h.2⟩) (fun _ _ _ h => h)
      (fun _ _ h => h) fun session e h => ⟨h.1, fun hok => ?_⟩
    exact ⟨List.mem_append_left _ (h.2 hok).1, List.mem_append_left _ (h.2 hok).2⟩
  have hmakes : ∀ session, ∃ session',
      sweepRow lib azureRg s.clock row session = .ok session' ∧ P session' := by
    intro session
    have hself : row.id ∈ (session.consider row.id).considered :=
      List.mem_append_right _ (List.mem_singleton_self _)
    rcases sweepRow_cases lib azureRg s.clock row session with
      ⟨hdestroyed, -⟩ | ⟨-, ⟨hrefused, reason, hsweep⟩ | ⟨-, ⟨e, herror, -⟩ | ⟨hnone, -⟩ |
        ⟨d, hd, hsweep⟩⟩⟩
    · exact absurd (kept_of_live hlive) (by rw [hdestroyed]; nofun)
    · exact ⟨_, hsweep, hself, fun hok => absurd hok (by rw [hrefused]; nofun)⟩
    · cases hdue.symm.trans herror
    · cases hdue.symm.trans hnone
    · obtain rfl := Option.some.inj (Except.ok.inj (hdue.symm.trans hd))
      exact ⟨_, hsweep, hself, fun _ => ⟨List.mem_append_right _ (List.mem_singleton_self _),
        List.mem_append_right _ (List.mem_singleton_self _)⟩⟩
  have hend : P (sweepRows lib azureRg s.clock (reached none s.db.rows) (opened s.db)).1 :=
    hkept.reaches hmakes (mem_scheduledVms hrow hlive hsuspend) (only_one hrow) hbefore _
  obtain ⟨hsession, hjobs⟩ := run_session lib azureRg s.clock none s.db
  unfold Honoured
  rw [hsession, hjobs]
  exact ⟨hend.1, fun hok => ⟨c, hanswered ▸ hlast, hend.2 hok⟩⟩

/-- After every run no boundary of a row has two power jobs. A pass whose interval holds a boundary
of an accepted schedule honours it exactly when the schedule has a suspend time and no row the sweep
comes to first raises. -/
theorem honoured_iff (clock : Instant) (events : List Event) (s : State)
    (hrun : system.exec (State.empty clock) events = some s) :
    (s.db.jobs.map fun e => (e.row, e.crossing.1)).Nodup ∧
      ∀ (lib : TimeLibrary) (azureRg : String) (row : DeployRow),
        (∀ name zone, lib.zoneInfo name = some zone → Steady zone) →
        row ∈ s.db.rows.rows → row.live = true → Accepted lib row.schedule →
        (∃ b, Boundary lib row.schedule b ∧ Interval (s.answered row.id) s.clock b.1) →
        (Honoured lib azureRg s row ↔ row.schedule.suspendAtLocal.isSome = true ∧
          ∀ r ∈ earlier s row, ¬Raises lib s.clock r) := by
  have hs := sound_of_exec hrun
  refine ⟨hs.recorded.nodup, fun lib azureRg row hsteady hrow hlive haccepted hcrossed => ?_⟩
  obtain ⟨b, hb, hinside⟩ := hcrossed
  exact ⟨loaded_of_honoured hrow, fun h =>
    honoured_of_loaded hsteady hs hrow hlive haccepted hb hinside h.1 h.2⟩

/- A VM gets a schedule at seven on a Monday morning, a pass arms it, and at nine the next pass is
due. -/

def monday (hour : ℕ) : Instant := 739893 * dayLength + minutes (60 * hour)

def sampleVm : DeployRow where
  job := { Jobs.createJob "vm" (monday 6) none
      { jobType := "ec2_deploy"
        createdBy := "admin"
        metadata := [("instance_id", .str "i-1"), ("region", .str "eu-west-1")] } with
    status := .completed }
  schedule := .none
  scheduleLastCheckedAt := none

def morning (request : Request) : List Event :=
  [.deploy sampleVm, .setSchedule onlyUtc "vm" request none, .pass onlyUtc "vm-cli-rg" none,
    .wait (minutes 120)]

def atNine (schedule : Schedule) (s : State) : Bool :=
  s.clock = monday 9 && s.answered "vm" = some (monday 7) &&
    (s.db.rows.lookup "vm").any fun row => row.live && row.schedule = schedule

def wakeAtEight : Request := ⟨"", "08:00", "UTC", "1111100"⟩

def sleepAtEight : Request := ⟨"08:00", "", "UTC", "1111100"⟩

theorem of_morning {schedule : Schedule} {request : Request}
    (h : (system.exec (State.empty (monday 7)) (morning request)).any (atNine schedule) = true) :
    ∃ s row, system.exec (State.empty (monday 7)) (morning request) = some s ∧
      row ∈ s.db.rows.rows ∧ row.id = "vm" ∧ row.live = true ∧ row.schedule = schedule ∧
      s.clock = monday 9 ∧ s.answered "vm" = some (monday 7) := by
  obtain ⟨s, hexec, hfacts⟩ := (Option.any_eq_true _ _).mp h
  simp only [atNine, Bool.and_eq_true, decide_eq_true_eq] at hfacts
  obtain ⟨⟨hclock, hanswered⟩, hrow⟩ := hfacts
  obtain ⟨row, hlookup, hrow⟩ := (Option.any_eq_true _ _).mp hrow
  simp only [Bool.and_eq_true, decide_eq_true_eq] at hrow
  obtain ⟨hmem, hid⟩ := Table.lookup_eq_some.mp hlookup
  exact ⟨s, row, hexec, hmem, hid, hrow.1, hrow.2, hclock, hanswered⟩

/-- At eight o'clock on a weekday. -/
theorem eight_crossed {schedule : Schedule} {action : Action}
    (hzone : schedule.scheduleTimezone = some "UTC") (hdays : schedule.scheduleDays = some "1111100")
    (htime : schedule.timeOf action = "08:00") :
    Boundary onlyUtc schedule (monday 8, action) ∧
      Interval (some (monday 7)) (monday 9) (monday 8) := by
  have hinstant : monday 8 = Windows.utc.instant 739893 (clock (8, 0)) := by decide
  refine ⟨⟨Windows.utc, "1111100", (8, 0), 739893, ?_, ?_, ?_, by decide, hinstant⟩,
    monday 7, rfl, by decide, by decide, by decide⟩
  · rw [hzone]
    rfl
  · rw [hdays]
    rfl
  · rw [htime]
    rfl

def suspendOnly : Schedule := ⟨some "08:00", none, some "UTC", some "1111100"⟩
def resumeOnly : Schedule := ⟨none, some "08:00", some "UTC", some "1111100"⟩

theorem morning_honoured : ∃ s row, row ∈ s.db.rows.rows ∧ row.schedule = suspendOnly ∧
    ((s.db.jobs.map fun e => (e.row, e.crossing.1)).Nodup ∧
      (Honoured onlyUtc "vm-cli-rg" s row ↔ row.schedule.suspendAtLocal.isSome = true ∧
        ∀ r ∈ earlier s row, ¬Raises onlyUtc s.clock r)) := by
  obtain ⟨s, row, hexec, hrow, hid, hlive, hschedule, hclock, hanswered⟩ :=
    of_morning (show (system.exec (State.empty (monday 7)) (morning sleepAtEight)).any
      (atNine suspendOnly) = true by decide +kernel)
  obtain ⟨hnodup, hiff⟩ := honoured_iff (monday 7) (morning sleepAtEight) s hexec
  refine ⟨s, row, hrow, hschedule, hnodup, hiff onlyUtc "vm-cli-rg" row steady_onlyUtc
    hrow hlive ⟨sleepAtEight, hschedule ▸ rfl⟩ ⟨(monday 8, .suspend), ?_⟩⟩
  rw [hschedule, hid, hclock, hanswered]
  exact eight_crossed rfl rfl rfl

/-- The schedule that only wakes the VM is accepted and never looked at. -/
theorem resume_not_honoured : ¬∀ (clock : Instant) (events : List Event) (s : State),
    system.exec (State.empty clock) events = some s →
      (s.db.jobs.map fun e => (e.row, e.crossing.1)).Nodup ∧
      ∀ (lib : TimeLibrary) (azureRg : String) (row : DeployRow),
        (∀ name zone, lib.zoneInfo name = some zone → Steady zone) →
        row ∈ s.db.rows.rows → row.live = true → Accepted lib row.schedule →
        (∃ b, Boundary lib row.schedule b ∧ Interval (s.answered row.id) s.clock b.1) →
        Honoured lib azureRg s row := by
  intro h
  obtain ⟨s, row, hexec, hrow, hid, hlive, hschedule, hclock, hanswered⟩ :=
    of_morning (show (system.exec (State.empty (monday 7)) (morning wakeAtEight)).any
      (atNine resumeOnly) = true by decide +kernel)
  have hcrossed : ∃ b, Boundary onlyUtc row.schedule b ∧
      Interval (s.answered row.id) s.clock b.1 := by
    refine ⟨(monday 8, .resume), ?_⟩
    rw [hschedule, hid, hclock, hanswered]
    exact eight_crossed rfl rfl rfl
  have hhonoured := (h (monday 7) (morning wakeAtEight) s hexec).2 onlyUtc "vm-cli-rg" row
    steady_onlyUtc hrow hlive ⟨wakeAtEight, hschedule ▸ rfl⟩ hcrossed
  have hnone := (loaded_of_honoured hrow hhonoured).1
  rw [hschedule] at hnone
  cases hnone

end Suspend
