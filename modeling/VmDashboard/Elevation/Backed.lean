import VmDashboard.Elevation.Calls

/-!
# What the sweeper keeps, and every run

A pass still has before it, has loaded, or has written over every row that could be reused under a
grant revoked when it began; at its end none is left.
-/

namespace Elevation
open Machine (Table)
open Python (Dict Instant Json later)
open Windows (TimeLibrary)

variable {lib : TimeLibrary}

/-! ### Passes of the sweeper -/

theorem Write.apply_not_usable (write : Write) (now : Instant) (row : EntitleActivation) :
    ¬Usable now (write.apply row) := by
  rintro ⟨hstatus, -⟩
  simp only [Write.apply, Write.status] at hstatus
  cases h : write.revokedAt.isSome <;> simp [h] at hstatus

/-- What a commit of the sweeper leaves of the rows: it takes them out of use and changes nothing
else that a later call reads. -/
structure Flips (rows rows' : Rows) : Prop where
  old : ∀ row' ∈ rows'.rows, ∃ row ∈ rows.rows, row'.id = row.id ∧ row'.cloud = row.cloud ∧
    row'.operation = row.operation ∧ row'.entitleRequestId = row.entitleRequestId ∧
    row'.expiresAt = row.expiresAt ∧ ∀ now, Usable now row' → Usable now row
  own : ∀ call requestId, OwnRow rows call requestId → OwnRow rows' call requestId

theorem Flips.refl (rows : Rows) : Flips rows rows :=
  ⟨fun row hrow => ⟨row, hrow, rfl, rfl, rfl, rfl, rfl, fun _ h => h⟩, fun _ _ h => h⟩

theorem flips_modify (rows : Rows) (write : Write) :
    Flips rows (rows.modify write.row write.apply fun _ => rfl) := by
  refine ⟨fun row' hrow' => ?_, fun call requestId hown => ?_⟩
  · rcases Table.of_modify_mem (fun _ => by rfl) hrow' with ⟨row, hrow, -, rfl⟩ | ⟨hrow, -⟩
    · exact ⟨row, hrow, rfl, rfl, rfl, rfl, rfl, fun now hu => absurd hu (write.apply_not_usable now row)⟩
    · exact ⟨row', hrow, rfl, rfl, rfl, rfl, rfl, fun _ hu => hu⟩
  · obtain ⟨row, hlookup, hrest⟩ := hown
    refine ⟨_, Table.lookup_modify_of_some _ (fun _ => by rfl) hlookup, ?_⟩
    split
    · exact hrest
    · exact hrest

theorem Flips.trans {rows rows' rows'' : Rows} (h : Flips rows rows') (h' : Flips rows' rows'') :
    Flips rows rows'' := by
  refine ⟨fun row'' hrow'' => ?_,
    fun call requestId hown => h'.own call requestId (h.own call requestId hown)⟩
  obtain ⟨row', hrow', hid', hcloud', hoperation', hrequest', hexpires', husable'⟩ := h'.old row'' hrow''
  obtain ⟨row, hrow, hid, hcloud, hoperation, hrequest, hexpires, husable⟩ := h.old row' hrow'
  exact ⟨row, hrow, hid'.trans hid, hcloud'.trans hcloud, hoperation'.trans hoperation,
    hrequest'.trans hrequest, hexpires'.trans hexpires, fun now hu => husable now (husable' now hu)⟩

theorem flips_flush (rows : Rows) (writes : List Write) : Flips rows (flush rows writes) := by
  unfold flush
  induction writes generalizing rows with
  | nil => exact Flips.refl rows
  | cons write writes ih => exact (flips_modify rows write).trans (ih _)

/-- Every row that a write names is out of use after the commit. -/
theorem flush_not_usable {rows : Rows} {writes : List Write} {write : Write} (hwrite : write ∈ writes)
    {row : EntitleActivation} (hrow : row ∈ (flush rows writes).rows) (hid : write.row = row.id)
    (now : Instant) : ¬Usable now row := by
  unfold flush at hrow
  induction writes generalizing rows with
  | nil => cases hwrite
  | cons first writes ih =>
    rcases List.mem_cons.mp hwrite with rfl | hrest
    · -- written now, and what is written later does not bring it back
      obtain ⟨row', hrow', hid', -, -, -, -, husable⟩ := (flips_flush _ writes).old row hrow
      rcases Table.of_modify_mem (fun _ => by rfl) hrow' with ⟨old, -, -, rfl⟩ | ⟨-, hne⟩
      · exact fun hu => write.apply_not_usable now old (husable now hu)
      · exact absurd (hid.trans hid').symm hne
    · exact ih hrest hrow

theorem Invariant.withSweeps {w : World} (h : Invariant lib w) {sweeps : Table Sweep.id}
    (hsweeps : ∀ sweep ∈ sweeps.rows, sweep ∈ w.sweeps.rows ∨
      (∀ requestId ∈ sweep.before, Revoked w.requests requestId) ∧
      (sweep.failed = false → ∀ row ∈ w.rows.rows, ∀ requestId, row.entitleRequestId = some requestId →
        requestId ∈ sweep.before → Usable w.now row → Caught sweep row) ∧
      (sweep.current = none → sweep.rows = [] ∧ (sweep.failed = false → sweep.writes = []))) :
    Invariant lib { w with sweeps } := by
  refine ⟨h.rows, h.filed, h.calls, h.yielded, h.revoked, h.covered, fun sweep hsweep => ?_,
    fun sweep hsweep hfailed => ?_, fun sweep hsweep => ?_⟩
  · rcases hsweeps sweep hsweep with hold | ⟨hbefore, -, -⟩
    · exact h.before sweep hold
    · exact hbefore
  · rcases hsweeps sweep hsweep with hold | ⟨-, hcaught, -⟩
    · exact h.caught sweep hold hfailed
    · exact hcaught hfailed
  · rcases hsweeps sweep hsweep with hold | ⟨-, -, hbetween⟩
    · exact h.between sweep hold
    · exact hbetween

/-- A pass moves on: it catches what it caught before. -/
theorem Invariant.setSweep {w : World} (h : Invariant lib w) {id : ℕ} {sweep : Sweep}
    (hsweep : w.sweeps.lookup id = some sweep) {f : Sweep → Sweep} {hf : ∀ s, (f s).id = s.id}
    (hbefore : (f sweep).before = sweep.before) (hfailed : (f sweep).failed = false → sweep.failed = false)
    (hcaught : (f sweep).failed = false → ∀ row ∈ w.rows.rows, ∀ requestId,
      row.entitleRequestId = some requestId → requestId ∈ sweep.before → Usable w.now row →
        Caught sweep row → Caught (f sweep) row)
    (hbetween : (f sweep).current = none →
      (f sweep).rows = [] ∧ ((f sweep).failed = false → (f sweep).writes = [])) :
    Invariant lib (w.setSweep id f hf) := by
  obtain ⟨hmem, hkey⟩ := Table.lookup_eq_some.mp hsweep
  refine h.withSweeps fun sweep' hsweep' => ?_
  rcases Table.of_modify_mem hf hsweep' with ⟨old, hold, hid, rfl⟩ | ⟨hold, -⟩
  · obtain rfl : old = sweep := Table.eq_of_key hold hmem (hid.trans hkey.symm)
    refine .inr ⟨hbefore ▸ h.before old hold,
      fun hok row hrow requestId hid hrevoked husable => ?_, hbetween⟩
    have hrevoked : requestId ∈ old.before := hbefore ▸ hrevoked
    exact hcaught hok row hrow requestId hid hrevoked husable
      (h.caught old hold (hfailed hok) row hrow requestId hid hrevoked husable)
  · exact .inl hold

theorem Invariant.beginSweep {w : World} (h : Invariant lib w) {id : ℕ} {sweeps : Table Sweep.id}
    (hinsert : w.sweeps.insert ⟨id, (w.requests.rows.filter (·.decision.isRevoked)).map Request.id,
      [.aws, .azure, .gcp], none, [], [], false⟩ = some sweeps) :
    Invariant lib { w with sweeps } := by
  refine h.withSweeps fun sweep hsweep => ?_
  rcases (Table.mem_insert hinsert).mp hsweep with hold | rfl
  · exact .inl hold
  · refine .inr ⟨fun requestId hid => ?_, fun _ row _ _ _ _ _ => .inl ?_, fun _ => ⟨rfl, fun _ => rfl⟩⟩
    · obtain ⟨request, hrequest, rfl⟩ := List.mem_map.mp hid
      obtain ⟨hmem, hrevoked⟩ := List.mem_filter.mp hrequest
      exact ⟨request, Table.lookup_eq_some.mpr ⟨hmem, rfl⟩, hrevoked⟩
    · cases row.cloud <;> simp

theorem Invariant.nextCloud {w : World} (h : Invariant lib w) {id : ℕ} {sweep : Sweep}
    (hsweep : w.sweeps.lookup id = some sweep) {cloud : Cloud} {clouds : List Cloud}
    (hcurrent : sweep.current = none) (hclouds : sweep.clouds = cloud :: clouds)
    (hlisted : sweep.failed = false → Listed w sweep) :
    if w.config.cloudEnabled cloud then
      Invariant lib (w.setSweep id (fun sweep => { sweep with
        clouds, current := some cloud, rows := sweepRows w.rows cloud w.now }) fun _ => rfl)
    else Invariant lib (w.setSweep id (fun sweep => { sweep with clouds }) fun _ => rfl) := by
  obtain ⟨hrows, hwrites⟩ := h.between sweep (Table.lookup_eq_some.mp hsweep).1 hcurrent
  have hnow : ∀ row, sweep.failed = false → Caught sweep row → row.cloud = cloud ∨ row.cloud ∈ clouds := by
    rintro row hfailed (hcloud | ⟨loaded, hloaded, -⟩ | ⟨write, hwrite, -⟩)
    · rw [hclouds] at hcloud
      exact List.mem_cons.mp hcloud
    · rw [hrows] at hloaded
      cases hloaded
    · rw [hwrites hfailed] at hwrite
      cases hwrite
  have hhead : cloud ∈ sweep.clouds.head? := by rw [hclouds]; rfl
  split
  next =>
    refine h.setSweep hsweep rfl (fun hf => hf)
      (fun hfailed row hrow requestId hid hbefore husable hcaught => ?_) nofun
    rcases hnow row hfailed hcaught with hcloud | hcloud
    · obtain ⟨-, hstatus, hrequested⟩ :=
        hlisted hfailed cloud hhead row hrow hcloud requestId hid hbefore husable
      exact .inr (.inl ⟨row, List.mem_filter.mpr ⟨hrow, decide_eq_true ⟨hcloud, hstatus, hrequested⟩⟩,
        rfl, rfl⟩)
    · exact .inl hcloud
  next hdisabled =>
    refine h.setSweep hsweep rfl (fun hf => hf)
      (fun hfailed row hrow requestId hid hbefore husable hcaught => ?_) fun _ => ⟨hrows, hwrites⟩
    rcases hnow row hfailed hcaught with hcloud | hcloud
    · obtain ⟨henabled, -⟩ :=
        hlisted hfailed cloud hhead row hrow hcloud requestId hid hbefore husable
      exact absurd henabled hdisabled
    · exact .inl hcloud

/-- A poll that comes back about a revoked grant ends with a write. -/
theorem sweepRow_of_revoked {requests : Requests} {row : EntitleActivation} {now : Instant} {poll : Poll}
    (hpolled : Polled lib requests row poll) {requestId : String}
    (hid : row.entitleRequestId = some requestId) (hrevoked : Revoked requests requestId)
    (hok : (sweepRow row now poll).2 = false) :
    ∃ write, (sweepRow row now poll).1 = some write ∧ write.row = row.id := by
  obtain ⟨request, hrequest, hrevoked⟩ := hrevoked
  unfold sweepRow at hok ⊢
  by_cases hempty : row.entitleRequestId.getD "" = ""
  · rw [if_pos hempty]
    exact ⟨_, rfl, rfl⟩
  rw [if_neg hempty] at hok ⊢
  by_cases hpast : ∃ expires ∈ row.expiresAt, expires ≤ now
  · rw [if_pos hpast]
    exact ⟨_, rfl, rfl⟩
  rw [if_neg hpast] at hok ⊢
  cases poll with
  | raised => cases hok
  | entitleError message =>
    by_cases hmissing : isMissing message = true
    · simp only [if_pos hmissing]
      exact ⟨_, rfl, rfl⟩
    · simp only [if_neg hmissing] at hok
      cases hok
  | payload payload =>
    obtain ⟨answered, hanswered, hanswers⟩ := hpolled payload rfl requestId hid
    obtain rfl : answered = request := Option.some.inj (hanswered.symm.trans hrequest)
    have hcategory : (classifyMachineStatus payload).1 = .denied := by
      rw [hanswers.category]
      cases hdecision : answered.decision with
      | revoked since => rfl
      | _ => rw [hdecision] at hrevoked; cases hrevoked
    simp only
    split
    next heq => rw [heq] at hcategory; cases hcategory
    next => exact ⟨_, rfl, rfl⟩
    next heq => rw [heq] at hcategory; cases hcategory

theorem Invariant.sweepRow {w : World} (h : Invariant lib w) {id : ℕ} {sweep : Sweep}
    (hsweep : w.sweeps.lookup id = some sweep) {row : EntitleActivation} {rows : List EntitleActivation}
    (hrows : sweep.rows = row :: rows) {poll : Poll} (hpolled : Polled lib w.requests row poll) :
    Invariant lib (w.setSweep id (fun sweep => { sweep with
      rows
      writes := sweep.writes ++ (Elevation.sweepRow row w.now poll).1.toList
      failed := sweep.failed || (Elevation.sweepRow row w.now poll).2 }) fun _ => rfl) := by
  have hmem := (Table.lookup_eq_some.mp hsweep).1
  refine h.setSweep hsweep rfl (fun hok => (Bool.or_eq_false_iff.mp hok).1)
    (fun hok found hfound requestId hid hbefore husable hcaught => ?_) (fun hcurrent => ?_)
  · rcases hcaught with hcloud | ⟨loaded, hloaded, hsame, hrequest⟩ | ⟨write, hwrite, hrow⟩
    · exact .inl hcloud
    · rw [hrows] at hloaded
      rcases List.mem_cons.mp hloaded with rfl | hlater
      · obtain ⟨write, hwrite, hrow⟩ := sweepRow_of_revoked hpolled (hrequest.trans hid)
          (h.before sweep hmem requestId hbefore) (Bool.or_eq_false_iff.mp hok).2
        refine .inr (.inr ⟨write, List.mem_append_right _ ?_, hrow.trans hsame⟩)
        rw [hwrite]
        exact List.mem_singleton_self write
      · exact .inr (.inl ⟨loaded, hlater, hsame, hrequest⟩)
    · exact .inr (.inr ⟨write, List.mem_append_left _ hwrite, hrow⟩)
  · obtain ⟨hnil, -⟩ := h.between sweep hmem hcurrent
    rw [hrows] at hnil
    cases hnil

theorem Invariant.flush {w : World} (h : Invariant lib w) (writes : List Write) :
    Invariant lib { w with rows := flush w.rows writes } := by
  have hflips := flips_flush w.rows writes
  refine ⟨fun row hrow expires he => ?_, fun row hrow requestId hid => ?_,
    fun call hcall => (h.calls call hcall).onward (Later.refl _) (hflips.own call), h.yielded,
    h.revoked, fun row hrow requestId hid hcovered hu => ?_, h.before,
    fun sweep hsweep hfailed row hrow requestId hid hbefore hu => ?_, h.between⟩
  · obtain ⟨old, hold, -, hcloud, hoperation, hrequest, hexpires, -⟩ := hflips.old row hrow
    have hgrant := (h.rows old hold expires (hexpires ▸ he)).grant
    rw [← hcloud, ← hoperation, ← hrequest] at hgrant
    exact ⟨hgrant⟩
  · obtain ⟨old, hold, -, -, -, hrequest, -, -⟩ := hflips.old row hrow
    exact h.filed old hold requestId (hrequest ▸ hid)
  · obtain ⟨old, hold, -, -, -, hrequest, -, husable⟩ := hflips.old row hrow
    exact h.covered old hold requestId (hrequest ▸ hid) hcovered (husable _ hu)
  · obtain ⟨old, hold, hsame, hcloud, -, hrequest, -, husable⟩ := hflips.old row hrow
    have hcaught := h.caught sweep hsweep hfailed old hold requestId (hrequest ▸ hid) hbefore (husable _ hu)
    unfold Caught at hcaught ⊢
    rw [hsame, hcloud, hrequest]
    exact hcaught

theorem Invariant.commit {w : World} (h : Invariant lib w) {id : ℕ} {sweep : Sweep}
    (hsweep : w.sweeps.lookup id = some sweep) (hrows : sweep.rows = []) :
    Invariant lib ({ w with rows := Elevation.flush w.rows sweep.writes }.setSweep id
      (fun sweep => { sweep with current := none, writes := [] }) fun _ => rfl) := by
  refine (h.flush sweep.writes).setSweep hsweep rfl (fun hf => hf)
    (fun _ row hrow requestId _ _ husable hcaught => ?_) fun _ => ⟨hrows, fun _ => rfl⟩
  rcases hcaught with hcloud | ⟨loaded, hloaded, -⟩ | ⟨write, hwrite, hsame⟩
  · exact .inl hcloud
  · rw [hrows] at hloaded
    cases hloaded
  · exact absurd husable (flush_not_usable hwrite hrow hsame _)

theorem Invariant.endSweep {w : World} (h : Invariant lib w) {id : ℕ} {sweep : Sweep}
    (hsweep : w.sweeps.lookup id = some sweep) (hcurrent : sweep.current = none)
    (hclouds : sweep.clouds = []) :
    Invariant lib { w with
      covered := if sweep.failed then w.covered else sweep.before ++ w.covered
      sweeps := w.sweeps.erase id } := by
  have hmem := (Table.lookup_eq_some.mp hsweep).1
  obtain ⟨hrows, hwrites⟩ := h.between sweep hmem hcurrent
  have hcovered : ∀ requestId ∈ (if sweep.failed then w.covered else sweep.before ++ w.covered),
      requestId ∈ w.covered ∨ sweep.failed = false ∧ requestId ∈ sweep.before := by
    intro requestId hid
    split at hid
    next => exact .inl hid
    next hok => exact (List.mem_append.mp hid).symm.imp_right fun hb => ⟨Bool.eq_false_iff.mpr hok, hb⟩
  have hstay : ∀ other ∈ (w.sweeps.erase id).rows, other ∈ w.sweeps.rows :=
    fun other hother => (Table.mem_erase.mp hother).1
  refine ⟨h.rows, h.filed, h.calls, h.yielded, fun requestId hid => ?_,
    fun row hrow requestId hid hc husable => ?_, fun other hother => h.before other (hstay other hother),
    fun other hother => h.caught other (hstay other hother),
    fun other hother => h.between other (hstay other hother)⟩
  · rcases hcovered requestId hid with hold | ⟨-, hbefore⟩
    · exact h.revoked requestId hold
    · exact h.before sweep hmem requestId hbefore
  · rcases hcovered requestId hc with hold | ⟨hok, hbefore⟩
    · exact h.covered row hrow requestId hid hold husable
    · rcases h.caught sweep hmem hok row hrow requestId hid hbefore husable with
        hcloud | ⟨loaded, hloaded, -⟩ | ⟨write, hwrite, -⟩
      · rw [hclouds] at hcloud
        cases hcloud
      · rw [hrows] at hloaded
        cases hloaded
      · rw [hwrites hok] at hwrite
        cases hwrite

/-! ### Every step -/

theorem Invariant.perform {w w' : World} (h : Invariant lib w) {label : Label}
    (hclear : ClearIn lib w label) (hw : w.perform lib label = some w') : Invariant lib w' := by
  cases label with
  | configure config =>
    obtain rfl := Option.some.inj hw
    exact h.onward le_rfl (Later.refl _)
  | elevate id args tie => exact h.elevate hclear hw
  | submit id answer =>
    obtain ⟨call, hcall, hstep⟩ := Option.bind_eq_some_iff.mp hw
    obtain rfl := Table.lookup_key hcall
    split at hstep
    next hphase => exact h.submit hcall hphase hstep
    next => cases hstep
  | ask id =>
    obtain ⟨call, hcall, hstep⟩ := Option.bind_eq_some_iff.mp hw
    obtain rfl := Table.lookup_key hcall
    split at hstep
    next hphase =>
      split at hstep
      next =>
        obtain rfl := Option.some.inj hstep
        exact h.ask hcall hphase
      next => cases hstep
    next => cases hstep
  | reply id answer =>
    obtain ⟨call, hcall, hstep⟩ := Option.bind_eq_some_iff.mp hw
    obtain rfl := Table.lookup_key hcall
    split at hstep
    next hphase =>
      obtain ⟨request, hrequest, hreply⟩ := Option.bind_eq_some_iff.mp hstep
      split at hreply
      next hanswers =>
        obtain rfl := Option.some.inj hreply
        exact h.reply hcall hphase hrequest hanswers
      next => cases hreply
    next =>
      obtain rfl := Option.some.inj hstep
      exact h.record hcall (fun _ hrow => h.writesOver (by simp) (by simp) rfl rfl hrow) trivial
    next => cases hstep
  | hear id =>
    obtain ⟨call, hcall, hstep⟩ := Option.bind_eq_some_iff.mp hw
    obtain rfl := Table.lookup_key hcall
    have hclear := hclear call hcall
    split at hstep
    next requestId deadline payload hphase =>
      obtain rfl := Option.some.inj hstep
      rw [hphase] at hclear
      exact h.hear hcall hphase (hclear (requestId, payload) rfl)
    next => cases hstep
  | timeout id =>
    obtain ⟨call, hcall, hw⟩ := Option.bind_eq_some_iff.mp hw
    split at hw
    next =>
      split at hw
      next =>
        obtain rfl := Option.some.inj hw
        exact h.record hcall (fun _ hrow => h.writesOver (by simp) (by simp) rfl rfl hrow) trivial
      next => cases hw
    next => cases hw
  | exit id recorded =>
    obtain ⟨call, hcall, hstep⟩ := Option.bind_eq_some_iff.mp hw
    obtain rfl := Table.lookup_key hcall
    split at hstep
    next =>
      split at hstep
      next hrecorded =>
        obtain rfl := Option.some.inj hstep
        exact h.exit hcall (hclear hrecorded)
      next =>
        obtain rfl := Option.some.inj hstep
        exact h.setPhase hcall trivial
    next => cases hstep
  | decide requestId decision =>
    obtain ⟨request, hrequest, hw⟩ := Option.bind_eq_some_iff.mp hw
    split at hw
    next hnext =>
      obtain rfl := Option.some.inj hw
      exact h.onward le_rfl (later_modify hrequest hnext)
    next => cases hw
  | beginSweep id =>
    simp only [World.perform] at hw
    split at hw
    next =>
      obtain ⟨sweeps, hinsert, rfl⟩ := Option.map_eq_some_iff.mp hw
      exact h.beginSweep hinsert
    next =>
      obtain rfl := Option.some.inj hw
      exact h
  | nextCloud id =>
    obtain ⟨sweep, hsweep, hw⟩ := Option.bind_eq_some_iff.mp hw
    split at hw
    next hcurrent hclouds =>
      have hnext := h.nextCloud hsweep hcurrent hclouds (hclear sweep hsweep)
      split at hw
      next henabled =>
        obtain rfl := Option.some.inj hw
        rwa [if_pos henabled] at hnext
      next hdisabled =>
        obtain rfl := Option.some.inj hw
        rwa [if_neg hdisabled] at hnext
    next => cases hw
  | sweepRow id poll =>
    obtain ⟨sweep, hsweep, hw⟩ := Option.bind_eq_some_iff.mp hw
    split at hw
    next hrows =>
      split at hw
      next hpolled =>
        obtain rfl := Option.some.inj hw
        exact h.sweepRow hsweep hrows hpolled
      next => cases hw
    next => cases hw
  | breakCloud id =>
    obtain ⟨sweep, hsweep, hw⟩ := Option.bind_eq_some_iff.mp hw
    split at hw
    next =>
      obtain rfl := Option.some.inj hw
      exact h.setSweep hsweep rfl nofun nofun fun _ => ⟨rfl, nofun⟩
    next => cases hw
  | commit id =>
    obtain ⟨sweep, hsweep, hw⟩ := Option.bind_eq_some_iff.mp hw
    split at hw
    next hrows =>
      obtain rfl := Option.some.inj hw
      exact h.commit hsweep hrows
    next => cases hw
  | endSweep id =>
    obtain ⟨sweep, hsweep, hw⟩ := Option.bind_eq_some_iff.mp hw
    split at hw
    next hcurrent hclouds =>
      obtain rfl := Option.some.inj hw
      exact h.endSweep hsweep hcurrent hclouds
    next => cases hw

theorem invariant_step (w : World) (step : Instant × Label) (w' : World) (h : Invariant lib w)
    (hclear : Clear lib w step) (hw : (system lib).step w step = some w') : Invariant lib w' := by
  dsimp only [system] at hw
  split at hw
  next hnow =>
    have honward : Invariant lib { w with now := step.1 } := h.onward hnow (Later.refl _)
    exact honward.perform hclear hw
  next => cases hw

theorem handles_backed (config : Config) {steps : List (Instant × Label)}
    (hclear : (system lib).Along (Clear lib) (World.start config) steps) :
    (system lib).Always Sound (World.start config) steps :=
  (system lib).always_mono (fun _ h => h.yielded)
    ((system lib).always_of_along invariant_step (invariant_start config) hclear)

/-! ### Runs -/

/-- A library that reads the one text below as `fromisoformat` does. -/
def sampleLibrary : TimeLibrary where
  zoneInfo _ := none
  fromisoformat text := if text = "1970-01-01T01:00:05+00:00" then some (.aware 3605000000) else none

def sampleConfig : Config where
  gateEnabled := true
  sweepEnabled := true
  cloudEnabled _ := true
  matrix := []
  machineTtlCeilingMinutes := ""
  machineIdentityEmail := "dashboard@example.test"

def sampleArgs (role : String) : Args where
  cloud := .gcp
  operation := "gcp:pov:provision"
  durationMinutes := 60
  target := some [("role_id", .str role)]
  gated := false
  reuseMinRemainingMinutes := some 20

def at5 : Instant := Python.seconds 5

/-- A call that Entitle grants five seconds in, and that hears of it two seconds later. -/
def grantedRun (payload : Dict) : List (Instant × Label) :=
  [(0, .elevate "a1" (sampleArgs "provision") 0), (0, .submit "a1" (.ok "req-1")),
    (at5, .decide "req-1" (.granted at5)), (Python.seconds 6, .ask "a1"),
    (Python.seconds 7, .reply "a1" (.ok payload)), (Python.seconds 7, .hear "a1")]

def toldPayload : Dict :=
  [("status", .str "granted"), ("expires_at", .str "1970-01-01T01:00:05Z")]

/-- Entitle revokes the grant, and a pass of the sweeper follows. -/
def revokedRun (polls : List (Instant × Label)) : List (Instant × Label) :=
  [(Python.seconds 60, .decide "req-1" (.revoked at5)), (Python.seconds 60, .beginSweep 1),
    (Python.seconds 60, .nextCloud 1), (Python.seconds 60, .commit 1),
    (Python.seconds 60, .nextCloud 1), (Python.seconds 60, .commit 1),
    (Python.seconds 60, .nextCloud 1)] ++ polls ++
  [(Python.seconds 61, .commit 1), (Python.seconds 61, .endSweep 1)]

def reuseAt (now : Instant) (role : String) : Instant × Label :=
  (now, .elevate "a2" (sampleArgs role) 0)

def steadyRun : List (Instant × Label) :=
  grantedRun toldPayload ++ [reuseAt (Python.seconds 9) "provision"] ++
    revokedRun [(Python.seconds 60, .sweepRow 1 (.payload [("status", .str "revoked")]))] ++
    [reuseAt (Python.seconds 90) "provision"]

theorem steadyRun_backed :
    (system sampleLibrary).Always Sound (World.start sampleConfig) steadyRun ∧
      ((system sampleLibrary).exec (World.start sampleConfig) steadyRun).map
        (fun w => (w.yielded.map fun y => y.handle.reused, w.covered)) =
          some ([false, true], ["req-1"]) :=
  ⟨handles_backed sampleConfig (by decide +kernel), by decide +kernel⟩

/-- A grant whose end Entitle does not tell is taken to end two seconds late, a grant for one role
stands behind a handle that asked for another, and the sweeper passes over a grant that a completed
row holds. -/
theorem handles_not_backed :
    ¬(system sampleLibrary).Always Sound (World.start sampleConfig)
        (grantedRun [("status", .str "granted")]) ∧
      ¬(system sampleLibrary).Always Sound (World.start sampleConfig)
        (grantedRun toldPayload ++ [reuseAt (Python.seconds 9) "billing"]) ∧
      ¬(system sampleLibrary).Always Sound (World.start sampleConfig)
        (grantedRun toldPayload ++ [(Python.seconds 8, .exit "a1" true)] ++ revokedRun [] ++
          [reuseAt (Python.seconds 90) "provision"]) := by
  refine ⟨?_, ?_, ?_⟩ <;> decide +kernel

end Elevation
