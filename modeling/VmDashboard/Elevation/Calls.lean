import VmDashboard.Elevation.Grants

/-!
# What the calls keep

A call writes to its own row only, and a row is usable again only where no pass has gone by.
-/

namespace Elevation
open Machine (Table)
open Python (Dict Instant Json later)
open Windows (TimeLibrary)

variable {lib : TimeLibrary}

theorem mem_newest {rows : Rows} {cloud : Cloud} {operation : String} {cutoff : Instant}
    {row : EntitleActivation} (h : row ∈ newest rows cloud operation cutoff) :
    row ∈ rows.rows ∧ Live cloud operation cutoff row := by
  obtain ⟨hmem, hlive⟩ := List.mem_filter.mp (List.mem_of_mem_filter h)
  exact ⟨hmem, of_decide_eq_true hlive⟩

theorem mem_newest_of_liveActivation {rows : Rows} {cloud : Cloud} {operation : String}
    {cutoff : Instant} {tie : ℕ} {row : EntitleActivation}
    (h : liveActivation rows cloud operation cutoff tie = some row) :
    row ∈ newest rows cloud operation cutoff := by
  unfold liveActivation at h
  split at h
  next => cases h
  next first others heq =>
    rw [heq]
    obtain rfl := Option.some.inj h
    rw [List.getD_eq_getElem?_getD]
    cases hget : (first :: others)[tie]? with
    | none => exact List.mem_cons_self
    | some row => exact List.mem_of_getElem? hget

theorem Invariant.withCalls {w : World} (h : Invariant lib w) {calls : Table Call.id}
    (hcalls : ∀ call ∈ calls.rows, Follows lib w.rows w.requests call) :
    Invariant lib { w with calls } :=
  ⟨h.rows, h.filed, hcalls, h.yielded, h.revoked, h.covered, h.before, h.caught, h.between⟩

theorem Invariant.setPhase {w : World} (h : Invariant lib w) {id : String} {call : Call}
    (hcall : w.calls.lookup id = some call) {phase : Phase}
    (hphase : Follows lib w.rows w.requests { call with phase }) : Invariant lib (w.setPhase id phase) := by
  refine h.withCalls fun call' hcall' => ?_
  rcases Table.of_modify_mem (fun _ => by rfl) hcall' with ⟨old, hold, hid, rfl⟩ | ⟨hold, -⟩
  · obtain rfl : old = call := by
      obtain ⟨hmem, hkey⟩ := Table.lookup_eq_some.mp hcall
      exact Table.eq_of_key hold hmem (hid.trans hkey.symm)
    exact hphase
  · exact h.calls call' hold

/-- What a write of a call leaves of its row: the expiry it gives is backed, and the row becomes
usable only where no pass has gone by. -/
structure Writes (w : World) (row row' : EntitleActivation) : Prop where
  holds : ∀ expires, row'.expiresAt = some expires → Holds w.requests row' expires
  filed : ∀ requestId, row'.entitleRequestId = some requestId →
    (w.requests.lookup requestId).isSome = true
  usable : Usable w.now row' → row'.entitleRequestId = row.entitleRequestId ∧ Usable w.now row ∨
    ∀ requestId, row'.entitleRequestId = some requestId → NotPassed w row.cloud requestId

theorem OwnRow.other {rows : Rows} {call : Call} {requestId : Option String}
    (h : OwnRow rows call requestId) {id : String} (hne : call.id ≠ id) (fields : Fields) :
    OwnRow (updateActivation rows id fields) call requestId := by
  obtain ⟨row, hlookup, hrest⟩ := h
  exact ⟨row, (Table.lookup_modify_of_ne rows hne fields.write fun _ => by rfl).trans hlookup, hrest⟩

theorem Invariant.record {w : World} (h : Invariant lib w) {id : String} {call : Call}
    (hcall : w.calls.lookup id = some call) {fields : Fields} {phase : Phase}
    (hwrites : ∀ row, w.rows.lookup id = some row → Writes w row (fields.write row))
    (hphase : Follows lib (updateActivation w.rows id fields) w.requests { call with phase }) :
    Invariant lib (w.record id fields phase) := by
  have hkey := Table.lookup_key hcall
  have hmem : ∀ row' ∈ (updateActivation w.rows id fields).rows,
      (∃ row, w.rows.lookup id = some row ∧ row' = fields.write row) ∨ row' ∈ w.rows.rows := by
    intro row' hrow'
    rcases Table.of_modify_mem (fun _ => by rfl) hrow' with ⟨row, hrow, hid, rfl⟩ | ⟨hrow, -⟩
    · exact .inl ⟨row, Table.lookup_eq_some.mpr ⟨hrow, hid⟩, rfl⟩
    · exact .inr hrow
  have hold : ∀ row, w.rows.lookup id = some row → row ∈ w.rows.rows :=
    fun row hrow => (Table.lookup_eq_some.mp hrow).1
  refine ⟨fun row' hrow' expires he => ?_, fun row' hrow' requestId hid => ?_,
    fun call' hcall' => ?_, h.yielded, h.revoked, fun row' hrow' requestId hid hcovered hu => ?_,
    h.before, fun sweep hsweep hfailed row' hrow' requestId hid hbefore hu => ?_, h.between⟩
  · rcases hmem row' hrow' with ⟨row, hrow, rfl⟩ | hrow
    · exact (hwrites row hrow).holds expires he
    · exact h.rows row' hrow expires he
  · rcases hmem row' hrow' with ⟨row, hrow, rfl⟩ | hrow
    · exact (hwrites row hrow).filed requestId hid
    · exact h.filed row' hrow requestId hid
  · rcases Table.of_modify_mem (fun _ => by rfl) hcall' with ⟨old, hmem', hid, rfl⟩ | ⟨hmem', hid⟩
    · obtain rfl : old = call :=
        Table.eq_of_key hmem' (Table.lookup_eq_some.mp hcall).1 (hid.trans hkey.symm)
      exact hphase
    · exact (h.calls call' hmem').onward (Later.refl _) fun _ hown => hown.other hid fields
  · rcases hmem row' hrow' with ⟨row, hrow, rfl⟩ | hrow
    · rcases (hwrites row hrow).usable hu with ⟨hsame, husable⟩ | hpassed
      · exact h.covered row (hold row hrow) requestId (hsame ▸ hid) hcovered husable
      · exact (hpassed requestId hid).1 hcovered
    · exact h.covered row' hrow requestId hid hcovered hu
  · rcases hmem row' hrow' with ⟨row, hrow, rfl⟩ | hrow
    · rcases (hwrites row hrow).usable hu with ⟨hsame, husable⟩ | hpassed
      · have hcaught := h.caught sweep hsweep hfailed row (hold row hrow) requestId (hsame ▸ hid)
          hbefore husable
        unfold Caught at hcaught ⊢
        rw [hsame]
        exact hcaught
      · exact .inl ((hpassed requestId hid).2 sweep hsweep hfailed hbefore)
    · exact h.caught sweep hsweep hfailed row' hrow requestId hid hbefore hu

/-- A write that ends the elevation. -/
theorem Invariant.writesOver {w : World} (h : Invariant lib w) {id : String} {fields : Fields}
    (hgranted : fields.status ≠ .granted) (hcompleted : fields.status ≠ .completed)
    (hid : fields.entitleRequestId = none) (hexpires : fields.expiresAt = none)
    {row : EntitleActivation} (hrow : w.rows.lookup id = some row) :
    Writes w row (fields.write row) := by
  have hmem := (Table.lookup_eq_some.mp hrow).1
  have hsame : (fields.write row).entitleRequestId = row.entitleRequestId := by
    simp only [Fields.write, hid, Option.none_or]
  refine ⟨fun expires he => ⟨?_⟩, fun requestId hrequest => ?_, fun husable => ?_⟩
  · rw [hsame]
    simp only [Fields.write, hexpires, Option.none_or] at he
    exact (h.rows row hmem expires he).grant
  · exact h.filed row hmem requestId (hsame ▸ hrequest)
  · rcases husable.1 with hstatus | hstatus
    · exact absurd hstatus hgranted
    · exact absurd hstatus hcompleted

theorem Invariant.refused {w : World} (h : Invariant lib w) {id : String} {call : Call}
    (hcall : w.calls.lookup id = some call) (message : String) :
    Invariant lib (w.refused id message) :=
  h.record hcall (fun _ hrow => h.writesOver (by simp) (by simp) rfl rfl hrow) trivial

theorem Invariant.submit {w w' : World} (h : Invariant lib w) {call : Call}
    (hcall : w.calls.lookup call.id = some call) (hphase : call.phase = .submitting)
    {answer : Except String String} (hw : w.submit call answer = some w') : Invariant lib w' := by
  unfold World.submit at hw
  split at hw
  next =>
    obtain rfl := Option.some.inj hw
    exact h.refused hcall _
  next =>
    obtain rfl := Option.some.inj hw
    exact h.refused hcall _
  next target requestId htarget =>
    obtain ⟨requests, hinsert, rfl⟩ := Option.map_eq_some_iff.mp hw
    have hfollows := h.calls call (Table.lookup_eq_some.mp hcall).1
    unfold Follows at hfollows
    rw [hphase] at hfollows
    obtain ⟨own, hown, hcloud, hoperation, hnone⟩ := hfollows
    have hfresh : w.requests.lookup requestId = none := (Table.insert_eq_some hinsert).1
    have hnew : requests.lookup requestId = some ⟨requestId, ⟨call.cloud, call.operation, target⟩,
        call.minutes * 60, .waiting⟩ := by
      rw [Table.lookup_insert hinsert, if_pos rfl]
    have hnotRevoked : ¬Revoked w.requests requestId := by
      rintro ⟨request, hrequest, -⟩
      rw [Option.mem_def, hfresh] at hrequest
      cases hrequest
    have honward : Invariant lib { w with requests } := h.onward le_rfl (later_insert hinsert)
    refine honward.record hcall (fun row hrow => ?_) ?_
    · obtain rfl : row = own := Option.some.inj (hrow.symm.trans hown)
      refine ⟨fun expires he => ?_, fun id hid => ?_, fun _ => .inr fun id hid => ?_⟩
      · obtain ⟨id, hid, -⟩ := (h.rows row (Table.lookup_eq_some.mp hown).1 expires he).grant
        rw [Option.mem_def, hnone] at hid
        cases hid
      · obtain rfl : requestId = id := Option.some.inj hid
        exact Option.isSome_iff_exists.mpr ⟨_, hnew⟩
      · obtain rfl : requestId = id := Option.some.inj hid
        exact ⟨fun hcovered => hnotRevoked (h.revoked requestId hcovered),
          fun sweep hsweep _ hbefore => absurd (h.before sweep hsweep requestId hbefore) hnotRevoked⟩
    · refine ⟨⟨_, Table.lookup_modify_of_some _ (fun _ => by rfl) hown, ?_⟩, _, hnew, rfl, rfl,
        htarget, rfl⟩
      rw [if_pos rfl]
      exact ⟨hcloud, hoperation, rfl⟩

/-- The row of a call that has filed its request. -/
theorem own_of_lookup {rows : Rows} {call : Call} {requestId : Option String}
    (h : OwnRow rows call requestId) {row : EntitleActivation} (hrow : rows.lookup call.id = some row) :
    row.cloud = call.cloud ∧ row.operation = call.operation ∧ row.entitleRequestId = requestId := by
  obtain ⟨own, hown, hrest⟩ := h
  obtain rfl : row = own := Option.some.inj (hrow.symm.trans hown)
  exact hrest

theorem Invariant.ask {w : World} (h : Invariant lib w) {call : Call}
    (hcall : w.calls.lookup call.id = some call) {requestId : String} {deadline : Instant}
    (hphase : call.phase = .polling requestId deadline) :
    Invariant lib (w.setPhase call.id (.asking requestId deadline)) := by
  have hfollows := h.calls call (Table.lookup_eq_some.mp hcall).1
  unfold Follows at hfollows
  rw [hphase] at hfollows
  obtain ⟨hown, request, hfiled⟩ := hfollows
  exact h.setPhase hcall ⟨hown, request, hfiled.1, hfiled.2, hfiled.3, hfiled.4, hfiled.5⟩

theorem Invariant.reply {w : World} (h : Invariant lib w) {call : Call}
    (hcall : w.calls.lookup call.id = some call) {requestId : String} {deadline : Instant}
    (hphase : call.phase = .asking requestId deadline) {request : Request}
    (hrequest : w.requests.lookup requestId = some request) {payload : Dict}
    (hanswers : request.Answers lib payload) :
    Invariant lib (w.setPhase call.id (.replied requestId deadline payload)) := by
  have hfollows := h.calls call (Table.lookup_eq_some.mp hcall).1
  unfold Follows at hfollows
  rw [hphase] at hfollows
  obtain ⟨hown, filed, hfiled⟩ := hfollows
  obtain rfl : filed = request := Option.some.inj (hfiled.lookup.symm.trans hrequest)
  refine h.setPhase hcall ⟨hown, filed, ⟨hfiled.1, hfiled.2, hfiled.3, hfiled.4, hfiled.5⟩,
    fun hgranted => ⟨?_, hanswers.ends⟩⟩
  have hcategory := hanswers.category.symm.trans hgranted
  cases hdecision : filed.decision with
  | granted since => rfl
  | _ => rw [hdecision] at hcategory; cases hcategory

/-- The answer that says the grant is made. -/
theorem Invariant.granted {w : World} (h : Invariant lib w) {call : Call}
    (hcall : w.calls.lookup call.id = some call) {requestId : String} {deadline : Instant}
    {payload : Dict} (hphase : call.phase = .replied requestId deadline payload)
    (hgranted : (classifyMachineStatus payload).1 = .granted) (htold : Told lib w requestId payload)
    (hpassed : NotPassed w call.cloud requestId) {granted : Instant} {expires : Instant}
    (hexpires : expires = (reportedEnd lib payload).getD (later w.now (call.minutes * 60))) :
    let w' := w.record call.id
      { status := .granted, grantedAt := some granted, expiresAt := some expires } .yielded
    Invariant lib { w' with
      yielded := w.yielded ++
        [⟨some call.target, none, w.now, w.covered, grantedHandle call requestId expires⟩] } := by
  have hfollows := h.calls call (Table.lookup_eq_some.mp hcall).1
  unfold Follows at hfollows
  rw [hphase] at hfollows
  obtain ⟨hown, request, hfiled, htells⟩ := hfollows
  obtain ⟨hsince, hreported⟩ := htells hgranted
  obtain ⟨since, hsince⟩ := Option.isSome_iff_exists.mp hsince
  have hends : request.ends? = some (later since request.duration) := by
    rw [Request.ends?, hsince]
    rfl
  have hle : expires ≤ later since request.duration := by
    rw [hexpires]
    rcases hreported with hnone | hsome
    · rw [hnone]
      rcases htold with htold | ⟨told, hlookup, hnow⟩
      · rw [hnone] at htold
        cases htold
      · obtain rfl : told = request := Option.some.inj (hlookup.symm.trans hfiled.lookup)
        obtain rfl : since = w.now := Option.some.inj (hsince.symm.trans hnow)
        rw [hfiled.duration]
        exact le_rfl
    · rw [hsome, hends]
      exact le_rfl
  have hrecorded : Invariant lib (w.record call.id
      { status := .granted, grantedAt := some granted, expiresAt := some expires } .yielded) := by
    refine h.record hcall (fun row hrow => ?_) trivial
    obtain ⟨hcloud, hoperation, hid⟩ := own_of_lookup hown hrow
    refine ⟨fun e he => ⟨requestId, hid, request, hfiled.lookup, hfiled.cloud.trans hcloud.symm,
      hfiled.operation.trans hoperation.symm, _, hends, ?_⟩, fun id he => ?_, fun _ => .inr fun id he => ?_⟩
    · obtain rfl : expires = e := Option.some.inj he
      exact hle
    · exact h.filed row (Table.lookup_eq_some.mp hrow).1 id he
    · obtain rfl : requestId = id := Option.some.inj (hid.symm.trans he)
      rw [hcloud]
      exact hpassed
  refine ⟨hrecorded.rows, hrecorded.filed, hrecorded.calls, fun y hy hreal => ?_, hrecorded.revoked,
    hrecorded.covered, hrecorded.before, hrecorded.caught, hrecorded.between⟩
  rcases List.mem_append.mp hy with hold | hnew
  · exact h.yielded y hold hreal
  · obtain rfl := List.mem_singleton.mp hnew
    exact ⟨requestId, rfl, request, hfiled.lookup, hfiled.cloud, hfiled.operation,
      ⟨call.target, rfl, hfiled.target⟩, ⟨expires, rfl, _, hends, hle, nofun⟩, nofun⟩

theorem Invariant.hear {w : World} (h : Invariant lib w) {call : Call}
    (hcall : w.calls.lookup call.id = some call) {requestId : String} {deadline : Instant}
    {payload : Dict} (hphase : call.phase = .replied requestId deadline payload)
    (hclear : (classifyMachineStatus payload).1 = .granted →
      Told lib w requestId payload ∧ NotPassed w call.cloud requestId) :
    Invariant lib (w.hear lib call requestId deadline payload) := by
  unfold World.hear
  split
  next _ heq =>
    have hgranted := congrArg Prod.fst heq
    obtain ⟨htold, hpassed⟩ := hclear hgranted
    exact h.granted hcall hphase hgranted htold hpassed rfl
  next =>
    exact h.record hcall (fun _ hrow => h.writesOver (by simp) (by simp) rfl rfl hrow) trivial
  next =>
    have hfollows := h.calls call (Table.lookup_eq_some.mp hcall).1
    unfold Follows at hfollows
    rw [hphase] at hfollows
    obtain ⟨hown, request, hfiled, -⟩ := hfollows
    exact h.setPhase hcall ⟨hown, request, hfiled.1, hfiled.2, hfiled.3, hfiled.4, hfiled.5⟩

theorem Invariant.exit {w : World} (h : Invariant lib w) {call : Call}
    (hcall : w.calls.lookup call.id = some call)
    (hclear : ∀ row ∈ w.rows.lookup call.id, Usable w.now { row with status := .granted } →
      row.status = .granted) :
    Invariant lib (w.record call.id { status := .completed } .exited) := by
  refine h.record hcall (fun row hrow => ?_) trivial
  have hmem := (Table.lookup_eq_some.mp hrow).1
  refine ⟨fun expires he => ⟨(h.rows row hmem expires he).grant⟩, fun id hid => h.filed row hmem id hid,
    fun husable => .inl ⟨rfl, ?_⟩⟩
  exact ⟨.inl (hclear row hrow ⟨.inl rfl, husable.2⟩), husable.2⟩

/-- A handle on the row of an earlier call. -/
theorem Invariant.reuse {w : World} (h : Invariant lib w) {args : Args} {tie : ℕ} {minutes : ℤ}
    {target : Dict} {row : EntitleActivation} (hreusable : w.reusable args tie = some row)
    (hsame : ∀ minutes ∈ args.reuseMinRemainingMinutes,
      ∀ row ∈ newest w.rows args.cloud args.operation (cutoff w.now minutes),
        AskedFor w.requests target row) :
    Invariant lib (w.handOut args (some target) (reusedHandle args minutes row)) := by
  obtain ⟨wanted, hwanted, hlive⟩ := Option.bind_eq_some_iff.mp hreusable
  have hnewest := mem_newest_of_liveActivation hlive
  obtain ⟨hmem, hcloud, hoperation, hstatus, -, expires, hexpires, hlt⟩ := mem_newest hnewest
  obtain ⟨requestId, hid, request, hrequest, hasked, hoperated, ends, hends, hle⟩ :=
    (h.rows row hmem expires hexpires).grant
  refine ⟨h.rows, h.filed, h.calls, fun y hy hreal => ?_, h.revoked, h.covered, h.before, h.caught,
    h.between⟩
  rcases List.mem_append.mp hy with hold | hnew
  · exact h.yielded y hold hreal
  · obtain rfl := List.mem_singleton.mp hnew
    refine ⟨requestId, hid, request, hrequest, hasked.trans hcloud, hoperated.trans hoperation,
      ⟨target, rfl, hsame wanted hwanted row hnewest requestId hid request hrequest⟩,
      ⟨expires, hexpires, ends, hends, hle, fun _ m hm => ?_⟩, fun _ hcovered => ?_⟩
    · obtain rfl : wanted = m := Option.some.inj (hwanted.symm.trans hm)
      have hspan : 60 * wanted ≤ 60 * max 0 wanted := by omega
      exact ((later_mono le_rfl hspan).trans_lt hlt).le.trans hle
    · have hkey : request.id = requestId := Table.lookup_key hrequest
      refine h.covered row hmem requestId hid (hkey ▸ hcovered) ⟨hstatus, expires, hexpires, ?_⟩
      exact (le_cutoff w.now wanted).trans_lt hlt

theorem Invariant.newRow {w : World} (h : Invariant lib w) {id : String} {args : Args} {rows : Rows}
    (hinsert : w.rows.insert (newActivationRow id args w.now) = some rows) :
    Invariant lib { w with rows } := by
  have hmem : ∀ row ∈ rows.rows,
      row ∈ w.rows.rows ∨ row.entitleRequestId = none ∧ row.expiresAt = none := by
    intro row hrow
    rcases (Table.mem_insert hinsert).mp hrow with hold | rfl
    · exact .inl hold
    · exact .inr ⟨rfl, rfl⟩
  refine ⟨fun row hrow expires he => ?_, fun row hrow requestId hid => ?_,
    fun call hcall => (h.calls call hcall).onward (Later.refl _) ?_, h.yielded, h.revoked,
    fun row hrow requestId hid => ?_, h.before, fun sweep hsweep hfailed row hrow requestId hid => ?_,
    h.between⟩
  · rcases hmem row hrow with hold | ⟨-, hnone⟩
    · exact h.rows row hold expires he
    · rw [hnone] at he
      cases he
  · rcases hmem row hrow with hold | ⟨hnone, -⟩
    · exact h.filed row hold requestId hid
    · rw [hnone] at hid
      cases hid
  · rintro requestId ⟨row, hlookup, hrest⟩
    exact ⟨row, Table.lookup_insert_of_some hinsert hlookup, hrest⟩
  · rcases hmem row hrow with hold | ⟨hnone, -⟩
    · exact h.covered row hold requestId hid
    · rw [hnone] at hid
      cases hid
  · rcases hmem row hrow with hold | ⟨hnone, -⟩
    · exact h.caught sweep hsweep hfailed row hold requestId hid
    · rw [hnone] at hid
      cases hid

theorem Invariant.newCall {w : World} (h : Invariant lib w) {call : Call} {calls : Table Call.id}
    (hinsert : w.calls.insert call = some calls) (hnew : Follows lib w.rows w.requests call) :
    Invariant lib { w with calls } := by
  refine h.withCalls fun call' hcall' => ?_
  rcases (Table.mem_insert hinsert).mp hcall' with hold | rfl
  · exact h.calls call' hold
  · exact hnew

theorem Invariant.elevate {w w' : World} (h : Invariant lib w) {id : String} {args : Args} {tie : ℕ}
    (hclear : args.dormant w.config = false → SameTarget w args)
    (hw : w.elevate id args tie = some w') : Invariant lib w' := by
  simp only [World.elevate] at hw
  split at hw
  · obtain rfl := Option.some.inj hw
    refine ⟨h.rows, h.filed, h.calls, fun y hy hreal => ?_, h.revoked, h.covered, h.before, h.caught,
      h.between⟩
    rcases List.mem_append.mp hy with hold | hnew
    · exact h.yielded y hold hreal
    · obtain rfl := List.mem_singleton.mp hnew
      cases hreal
  next hdormant =>
    have hsame := hclear (Bool.eq_false_iff.mpr hdormant)
    split at hw
    next =>
      obtain ⟨calls, hcalls, rfl⟩ := Option.map_eq_some_iff.mp hw
      exact h.newCall hcalls trivial
    next target htarget =>
      split at hw
      next row hreusable =>
        obtain rfl := Option.some.inj hw
        exact h.reuse hreusable (hsame target htarget)
      next =>
        obtain ⟨rows, hrows, hw⟩ := Option.bind_eq_some_iff.mp hw
        obtain ⟨calls, hcalls, rfl⟩ := Option.map_eq_some_iff.mp hw
        have hfresh := (Table.lookup_insert hrows id).trans (if_pos rfl)
        have hnew := (h.newRow hrows).newCall hcalls ⟨_, hfresh, rfl, rfl, rfl⟩
        split
        · have hcall := (Table.lookup_insert hcalls id).trans (if_pos rfl)
          exact hnew.record hcall (fun _ hrow => hnew.writesOver (by simp) (by simp) rfl rfl hrow) trivial
        · exact hnew

end Elevation
