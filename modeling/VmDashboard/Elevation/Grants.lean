import VmDashboard.Elevation.Activation

/-!
# A grant of what was asked stands behind every handle

Of a run: every handle that is not a no-op was asked for as its call asks and ends no later than its
grant does, a reused one has the minutes its call wanted, and none is reused that a pass of the
sweeper begun after its revoke has dealt with. The rows keep neither the target nor more of an expiry
than Entitle says, and the sweeper passes over what it does not list, so this holds of the runs whose
steps stay clear of that.
-/

namespace Elevation
open Machine (Table)
open Python (Dict Instant Json later)
open Windows (TimeLibrary)

instance exceptDecidableEq {ε α : Type} [DecidableEq ε] [DecidableEq α] : DecidableEq (Except ε α)
  | .ok x, .ok y => decidable_of_iff (x = y) ⟨congrArg _, Except.ok.inj⟩
  | .error x, .error y => decidable_of_iff (x = y) ⟨congrArg _, Except.error.inj⟩
  | .ok _, .error _ => isFalse fun h => by cases h
  | .error _, .ok _ => isFalse fun h => by cases h

/-! ### What is asked of every handle -/

structure Backed (y : Yielded) (request : Request) : Prop where
  cloud : request.asked.cloud = y.handle.cloud
  operation : request.asked.operation = y.handle.operation
  target : ∃ target ∈ y.target, requestTarget target = .ok request.asked.target
  expires : ∃ expires ∈ y.handle.expiresAt, ∃ ends ∈ request.ends?, expires ≤ ends ∧
    (y.handle.reused = true → ∀ minutes ∈ y.minRemaining, later y.moment (60 * minutes) ≤ ends)
  live : y.handle.reused = true → request.id ∉ y.covered

instance (y : Yielded) (request : Request) : Decidable (Backed y request) :=
  decidable_of_iff (_ ∧ _ ∧ (∃ target ∈ y.target, requestTarget target = .ok request.asked.target) ∧ _ ∧ _)
    ⟨fun ⟨h, h', h'', h3, h4⟩ => ⟨h, h', h'', h3, h4⟩, fun ⟨h, h', h'', h3, h4⟩ => ⟨h, h', h'', h3, h4⟩⟩

def Sound (w : World) : Prop :=
  ∀ y ∈ w.yielded, y.handle.isNoop = false →
    ∃ requestId ∈ y.handle.entitleRequestId, ∃ request ∈ w.requests.lookup requestId,
      Backed y request

instance : DecidablePred Sound :=
  fun w => inferInstanceAs (Decidable (∀ y ∈ w.yielded, _ → ∃ requestId ∈ _, ∃ request ∈ _, Backed _ _))

/-! ### The steps that stay clear of the gaps -/

/-- The row could be reused now. -/
def Usable (now : Instant) (row : EntitleActivation) : Prop :=
  (row.status = .granted ∨ row.status = .completed) ∧ ∃ expires ∈ row.expiresAt, now < expires

instance (now : Instant) : DecidablePred (Usable now) :=
  fun _ => inferInstanceAs (Decidable (_ ∧ _))

/-- The grant of the row was asked for this target. -/
def AskedFor (requests : Requests) (target : Dict) (row : EntitleActivation) : Prop :=
  ∀ requestId ∈ row.entitleRequestId, ∀ request ∈ requests.lookup requestId,
    requestTarget target = .ok request.asked.target

instance (requests : Requests) (target : Dict) : DecidablePred (AskedFor requests target) :=
  fun _ => inferInstanceAs (Decidable (∀ requestId ∈ _, ∀ request ∈ _, _ = _))

/-- Of the live grants of this cloud and operation the longest was asked for this target. -/
def SameTarget (w : World) (args : Args) : Prop :=
  ∀ target ∈ (args.target? w.config).filter (! ·.isEmpty), ∀ minutes ∈ args.reuseMinRemainingMinutes,
    ∀ row ∈ newest w.rows args.cloud args.operation (cutoff w.now minutes),
      AskedFor w.requests target row

instance (w : World) (args : Args) : Decidable (SameTarget w args) :=
  inferInstanceAs (Decidable (∀ target ∈ _, ∀ minutes ∈ _, ∀ row ∈ _, AskedFor _ target row))

/-- Entitle says when the grant ends, or has made it this very moment. -/
def Told (lib : TimeLibrary) (w : World) (requestId : String) (payload : Dict) : Prop :=
  (reportedEnd lib payload).isSome ∨
    ∃ request ∈ w.requests.lookup requestId, request.decision.since? = some w.now

instance (lib : TimeLibrary) (w : World) (requestId : String) (payload : Dict) :
    Decidable (Told lib w requestId payload) := inferInstanceAs (Decidable (_ ∨ _))

/-- No pass begun since a revoke of the grant is past its cloud. -/
def NotPassed (w : World) (cloud : Cloud) (requestId : String) : Prop :=
  requestId ∉ w.covered ∧ ∀ sweep ∈ w.sweeps.rows, sweep.failed = false → requestId ∈ sweep.before →
    cloud ∈ sweep.clouds

instance (w : World) (cloud : Cloud) (requestId : String) : Decidable (NotPassed w cloud requestId) :=
  inferInstanceAs (Decidable (_ ∧ ∀ sweep ∈ _, _))

/-- The sweeper lists every row of this cloud that could be reused under a grant revoked by then. -/
def Listed (w : World) (sweep : Sweep) : Prop :=
  ∀ cloud ∈ sweep.clouds.head?, ∀ row ∈ w.rows.rows, row.cloud = cloud →
    ∀ requestId ∈ row.entitleRequestId, requestId ∈ sweep.before → Usable w.now row →
      w.config.cloudEnabled cloud = true ∧ row.status = .granted ∧
        w.now ≤ row.requestedAt + lookback

instance (w : World) (sweep : Sweep) : Decidable (Listed w sweep) :=
  inferInstanceAs (Decidable (∀ cloud ∈ _, ∀ row ∈ _, _ → ∀ requestId ∈ _, _))

def Phase.reply? : Phase → Option (String × Dict)
  | .replied requestId _ payload => some (requestId, payload)
  | _ => none

def ClearIn (lib : TimeLibrary) (w : World) : Label → Prop
  | .elevate _ args _ => args.dormant w.config = false → SameTarget w args
  | .hear id =>
    ∀ call ∈ w.calls.lookup id, ∀ reply ∈ call.phase.reply?,
      (classifyMachineStatus reply.2).1 = .granted →
        Told lib w reply.1 reply.2 ∧ NotPassed w call.cloud reply.1
  | .exit id recorded =>
    recorded = true → ∀ row ∈ w.rows.lookup id, Usable w.now { row with status := .granted } →
      row.status = .granted
  | .nextCloud id => ∀ sweep ∈ w.sweeps.lookup id, sweep.failed = false → Listed w sweep
  | _ => True

instance (lib : TimeLibrary) (w : World) (label : Label) : Decidable (ClearIn lib w label) :=
  match label with
  | .elevate _ args _ => inferInstanceAs (Decidable (_ → SameTarget w args))
  | .hear _ =>
    inferInstanceAs (Decidable (∀ call ∈ _, ∀ reply ∈ _, _ → Told lib w _ _ ∧ NotPassed w _ _))
  | .exit _ _ => inferInstanceAs (Decidable (_ → ∀ row ∈ _, Usable _ _ → _))
  | .nextCloud _ => inferInstanceAs (Decidable (∀ sweep ∈ _, _ → Listed w sweep))
  | .configure _ | .submit _ _ | .ask _ | .reply _ _ | .timeout _ | .decide _ _ | .beginSweep _
  | .sweepRow _ _ | .breakCloud _ | .commit _ | .endSweep _ => isTrue trivial

def Clear (lib : TimeLibrary) (w : World) (step : Instant × Label) : Prop :=
  ClearIn lib { w with now := step.1 } step.2

instance (lib : TimeLibrary) (w : World) (step : Instant × Label) : Decidable (Clear lib w step) :=
  inferInstanceAs (Decidable (ClearIn lib _ _))

/-! ### The invariant -/

/-- An expiry on a row is no later than the end of the grant the row names. -/
structure Holds (requests : Requests) (row : EntitleActivation) (expires : Instant) : Prop where
  grant : ∃ requestId ∈ row.entitleRequestId, ∃ request ∈ requests.lookup requestId,
    request.asked.cloud = row.cloud ∧ request.asked.operation = row.operation ∧
      ∃ ends ∈ request.ends?, expires ≤ ends

/-- The row of a call, under the request the call filed. -/
structure Filed (requests : Requests) (call : Call) (requestId : String) (request : Request) : Prop where
  lookup : requests.lookup requestId = some request
  cloud : request.asked.cloud = call.cloud
  operation : request.asked.operation = call.operation
  target : requestTarget call.target = .ok request.asked.target
  duration : request.duration = call.minutes * 60

def OwnRow (rows : Rows) (call : Call) (requestId : Option String) : Prop :=
  ∃ row, rows.lookup call.id = some row ∧ row.cloud = call.cloud ∧ row.operation = call.operation ∧
    row.entitleRequestId = requestId

/-- What a payload told of the grant. -/
def Tells (lib : TimeLibrary) (request : Request) (payload : Dict) : Prop :=
  (classifyMachineStatus payload).1 = .granted →
    request.decision.since?.isSome ∧
      (reportedEnd lib payload = none ∨ reportedEnd lib payload = request.ends?)

def Follows (lib : TimeLibrary) (rows : Rows) (requests : Requests) (call : Call) : Prop :=
  match call.phase with
  | .submitting => OwnRow rows call none
  | .polling requestId _ =>
    OwnRow rows call (some requestId) ∧ ∃ request, Filed requests call requestId request
  | .asking requestId _ =>
    OwnRow rows call (some requestId) ∧ ∃ request, Filed requests call requestId request
  | .replied requestId _ payload =>
    OwnRow rows call (some requestId) ∧
      ∃ request, Filed requests call requestId request ∧ Tells lib request payload
  | _ => True

def Revoked (requests : Requests) (requestId : String) : Prop :=
  ∃ request ∈ requests.lookup requestId, request.decision.isRevoked = true

/-- The pass has the row still to come, loaded, or written over. -/
def Caught (sweep : Sweep) (row : EntitleActivation) : Prop :=
  row.cloud ∈ sweep.clouds ∨
    (∃ loaded ∈ sweep.rows, loaded.id = row.id ∧ loaded.entitleRequestId = row.entitleRequestId) ∨
    ∃ write ∈ sweep.writes, write.row = row.id

structure Invariant (lib : TimeLibrary) (w : World) : Prop where
  rows : ∀ row ∈ w.rows.rows, ∀ expires, row.expiresAt = some expires → Holds w.requests row expires
  filed : ∀ row ∈ w.rows.rows, ∀ requestId, row.entitleRequestId = some requestId →
    (w.requests.lookup requestId).isSome = true
  calls : ∀ call ∈ w.calls.rows, Follows lib w.rows w.requests call
  yielded : Sound w
  revoked : ∀ requestId ∈ w.covered, Revoked w.requests requestId
  covered : ∀ row ∈ w.rows.rows, ∀ requestId, row.entitleRequestId = some requestId →
    requestId ∈ w.covered → ¬Usable w.now row
  before : ∀ sweep ∈ w.sweeps.rows, ∀ requestId ∈ sweep.before, Revoked w.requests requestId
  caught : ∀ sweep ∈ w.sweeps.rows, sweep.failed = false → ∀ row ∈ w.rows.rows, ∀ requestId,
    row.entitleRequestId = some requestId → requestId ∈ sweep.before → Usable w.now row →
      Caught sweep row
  between : ∀ sweep ∈ w.sweeps.rows, sweep.current = none →
    sweep.rows = [] ∧ (sweep.failed = false → sweep.writes = [])

variable {lib : TimeLibrary}

theorem invariant_start (config : Config) : Invariant lib (World.start config) := by
  constructor <;> intro _ h <;> cases h

/-! ### Times and requests move on -/

theorem later_mono {now now' : Instant} {n n' : ℤ} (hnow : now ≤ now') (hn : n ≤ n') :
    later now n ≤ later now' n' := by
  have hspan : n * 1000000 ≤ n' * 1000000 := by omega
  exact Int.toNat_le_toNat (add_le_add (Int.ofNat_le.mpr hnow) hspan)

theorem le_cutoff (now : Instant) (minutes : ℤ) : now ≤ cutoff now minutes := by
  have hzero : later now 0 = now := by simp [later]
  have hspan : 0 ≤ 60 * max 0 minutes := by omega
  exact hzero.symm.le.trans (later_mono le_rfl hspan)

theorem Usable.earlier {now now' : Instant} {row : EntitleActivation} (h : Usable now' row)
    (hnow : now ≤ now') : Usable now row := by
  obtain ⟨hstatus, expires, hexpires, hlt⟩ := h
  exact ⟨hstatus, expires, hexpires, hnow.trans_lt hlt⟩

theorem Later.ends {requests requests' : Requests} (h : Later requests requests') {id : String}
    {request : Request} (hrequest : requests.lookup id = some request) :
    ∃ request', requests'.lookup id = some request' ∧ request'.asked = request.asked ∧
      request'.duration = request.duration ∧ (∀ ends ∈ request.ends?, request'.ends? = some ends) ∧
      (request.decision.since?.isSome →
        request'.decision.since?.isSome ∧ request'.ends? = request.ends?) := by
  obtain ⟨request', hrequest', hasked, hduration, hsince, -⟩ := h id request hrequest
  have hends : ∀ since, request.decision.since? = some since → request'.ends? = request.ends? := by
    intro since hs
    unfold Request.ends?
    rw [hsince since hs, hs, hduration]
  refine ⟨request', hrequest', hasked, hduration, fun ends he => ?_, fun hs => ?_⟩
  · obtain ⟨since, hs, -⟩ := Option.map_eq_some_iff.mp he
    rw [hends since hs]
    exact he
  · obtain ⟨since, hs⟩ := Option.isSome_iff_exists.mp hs
    rw [hsince since hs]
    exact ⟨rfl, hends since hs⟩

theorem Holds.later {requests requests' : Requests} (hlater : Later requests requests')
    {row : EntitleActivation} {expires : Instant} (h : Holds requests row expires) :
    Holds requests' row expires := by
  obtain ⟨requestId, hid, request, hrequest, hcloud, hoperation, ends, hends, hle⟩ := h.grant
  obtain ⟨request', hrequest', hasked, -, hkeep, -⟩ := hlater.ends hrequest
  exact ⟨requestId, hid, request', hrequest', hasked ▸ hcloud, hasked ▸ hoperation, ends,
    hkeep ends hends, hle⟩

theorem Revoked.later {requests requests' : Requests} (hlater : Later requests requests')
    {requestId : String} (h : Revoked requests requestId) : Revoked requests' requestId := by
  obtain ⟨request, hrequest, hrevoked⟩ := h
  obtain ⟨request', hrequest', -, -, -, hkeep⟩ := hlater requestId request hrequest
  exact ⟨request', hrequest', hkeep hrevoked⟩

theorem Filed.later {requests requests' : Requests} (hlater : Later requests requests') {call : Call}
    {requestId : String} {request : Request} (h : Filed requests call requestId request) :
    ∃ request', Filed requests' call requestId request' ∧
      ∀ lib payload, Tells lib request payload → Tells lib request' payload := by
  obtain ⟨request', hrequest', hasked, hduration, -, hkeep⟩ := hlater.ends h.lookup
  refine ⟨request', ⟨hrequest', hasked ▸ h.cloud, hasked ▸ h.operation, hasked ▸ h.target,
    hduration ▸ h.duration⟩, fun lib payload htells hgranted => ?_⟩
  obtain ⟨hsome, hends⟩ := htells hgranted
  obtain ⟨hsome', heq⟩ := hkeep hsome
  exact ⟨hsome', heq ▸ hends⟩

theorem Follows.onward {rows rows' : Rows} {requests requests' : Requests} {call : Call}
    (h : Follows lib rows requests call) (hlater : Later requests requests')
    (hrows : ∀ requestId, OwnRow rows call requestId → OwnRow rows' call requestId) :
    Follows lib rows' requests' call := by
  obtain ⟨id, cloud, operation, target, minutes, phase⟩ := call
  cases phase with
  | submitting => exact hrows _ h
  | polling requestId deadline =>
    obtain ⟨hown, request, hfiled⟩ := h
    obtain ⟨request', hfiled', -⟩ := hfiled.later hlater
    exact ⟨hrows _ hown, request', hfiled'⟩
  | asking requestId deadline =>
    obtain ⟨hown, request, hfiled⟩ := h
    obtain ⟨request', hfiled', -⟩ := hfiled.later hlater
    exact ⟨hrows _ hown, request', hfiled'⟩
  | replied requestId deadline payload =>
    obtain ⟨hown, request, hfiled, htells⟩ := h
    obtain ⟨request', hfiled', hkeep⟩ := hfiled.later hlater
    exact ⟨hrows _ hown, request', hfiled', hkeep _ _ htells⟩
  | _ => trivial

theorem Sound.later {w w' : World} (h : Sound w) (hyielded : w'.yielded = w.yielded)
    (hlater : Later w.requests w'.requests) : Sound w' := by
  intro y hy hreal
  obtain ⟨requestId, hid, request, hrequest, hbacked⟩ := h y (hyielded ▸ hy) hreal
  obtain ⟨request', hrequest', hasked, -, hkeep, -⟩ := hlater.ends hrequest
  obtain ⟨expires, hexpires, ends, hends, hle⟩ := hbacked.expires
  have hsame : request'.id = request.id :=
    (Table.lookup_key hrequest').trans (Table.lookup_key hrequest).symm
  exact ⟨requestId, hid, request', hrequest', hasked ▸ hbacked.cloud, hasked ▸ hbacked.operation,
    hasked ▸ hbacked.target, ⟨expires, hexpires, ends, hkeep ends hends, hle⟩, hsame ▸ hbacked.live⟩

/-- Time, the settings and Entitle move on by themselves. -/
theorem Invariant.onward {w : World} (h : Invariant lib w) {now : Instant} {config : Config}
    {requests : Requests} (hnow : w.now ≤ now) (hlater : Later w.requests requests) :
    Invariant lib { w with now, config, requests } where
  rows row hrow expires hexpires := (h.rows row hrow expires hexpires).later hlater
  filed row hrow requestId hid := by
    obtain ⟨request, hrequest⟩ := Option.isSome_iff_exists.mp (h.filed row hrow requestId hid)
    obtain ⟨request', hrequest', -⟩ := hlater requestId request hrequest
    exact Option.isSome_iff_exists.mpr ⟨request', hrequest'⟩
  calls call hcall := (h.calls call hcall).onward hlater fun _ hown => hown
  yielded := h.yielded.later rfl hlater
  revoked requestId hid := (h.revoked requestId hid).later hlater
  covered row hrow requestId hid hcovered husable :=
    h.covered row hrow requestId hid hcovered (husable.earlier hnow)
  before sweep hsweep requestId hid := (h.before sweep hsweep requestId hid).later hlater
  caught sweep hsweep hfailed row hrow requestId hid hbefore husable :=
    h.caught sweep hsweep hfailed row hrow requestId hid hbefore (husable.earlier hnow)
  between := h.between

end Elevation
