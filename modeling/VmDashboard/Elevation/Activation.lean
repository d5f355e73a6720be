import VmDashboard.Elevation.Entitle
import VmDashboard.Machine.System

/-!
# Elevations and sweeps over the activation rows

`elevate` and its helpers of `services/cloud_identity_service.py`, and a pass of `sweep_once` of
`services/cloud_identity_sweeper_service.py`. A call is cut where it awaits Entitle and where it hands
out its handle, a pass at every query, poll and commit, so that any number of either interleave with
each other and with what Entitle decides.
-/

namespace Elevation
open Machine (Table)
open Python (Dict Instant Json later lower strip containsText)
open Windows (TimeLibrary)

/-! ### The rows -/

inductive Status where
  | pending
  | granted
  | denied
  | failed
  | timeout
  | completed
  | revoked
  deriving DecidableEq

structure EntitleActivation where
  id : String
  cloud : Cloud
  operation : String
  entitleRequestId : Option String
  status : Status
  denialReason : Option String
  requestedAt : Instant
  grantedAt : Option Instant
  expiresAt : Option Instant
  revokedAt : Option Instant
  deriving DecidableEq

abbrev Rows := Table EntitleActivation.id

/-- The keywords of `_update_activation`, which leaves out those that are `None`. -/
structure Fields where
  status : Status
  entitleRequestId : Option String := none
  denialReason : Option String := none
  grantedAt : Option Instant := none
  expiresAt : Option Instant := none

def Fields.write (fields : Fields) (row : EntitleActivation) : EntitleActivation :=
  { row with
    status := fields.status
    entitleRequestId := fields.entitleRequestId.or row.entitleRequestId
    denialReason := fields.denialReason.or row.denialReason
    grantedAt := fields.grantedAt.or row.grantedAt
    expiresAt := fields.expiresAt.or row.expiresAt }

def updateActivation (rows : Rows) (id : String) (fields : Fields) : Rows :=
  rows.modify id fields.write fun _ => rfl

def clip (text : String) : String := String.ofList (text.toList.take 500)

/-- The filter of `_live_activation`. -/
def Live (cloud : Cloud) (operation : String) (cutoff : Instant) (row : EntitleActivation) : Prop :=
  row.cloud = cloud ∧ row.operation = operation ∧
    (row.status = .granted ∨ row.status = .completed) ∧ row.entitleRequestId.isSome ∧
    ∃ expires ∈ row.expiresAt, cutoff < expires

instance (cloud : Cloud) (operation : String) (cutoff : Instant) :
    DecidablePred (Live cloud operation cutoff) :=
  fun _ => inferInstanceAs (Decidable (_ ∧ _ ∧ _ ∧ _ ∧ _))

def cutoff (now : Instant) (minRemainingMinutes : ℤ) : Instant :=
  later now (60 * max 0 minRemainingMinutes)

/-- The live rows that no live row outlives. -/
def newest (rows : Rows) (cloud : Cloud) (operation : String) (cutoff : Instant) :
    List EntitleActivation :=
  let live := rows.rows.filter fun row => Live cloud operation cutoff row
  live.filter fun row => live.all fun other => other.expiresAt.getD 0 ≤ row.expiresAt.getD 0

/-- `tie` is the row the database puts first of those with the same expiry. -/
def liveActivation (rows : Rows) (cloud : Cloud) (operation : String) (cutoff : Instant) (tie : ℕ) :
    Option EntitleActivation :=
  match newest rows cloud operation cutoff with
  | [] => none
  | row :: others => some ((row :: others).getD tie row)

/-! ### The settings -/

structure Config where
  gateEnabled : Bool
  sweepEnabled : Bool
  cloudEnabled : Cloud → Bool
  matrix : List (String × Dict)
  machineTtlCeilingMinutes : String
  machineIdentityEmail : String

/-- `_cfg_int`. -/
def cfgInt (value : String) (default : ℤ) : ℤ :=
  if strip value = "" then default else (Python.parseInt (strip value)).getD default

def Config.ceiling (config : Config) : ℤ := max 1 (cfgInt config.machineTtlCeilingMinutes 60)

/-! ### Calls of `elevate` -/

structure Args where
  cloud : Cloud
  operation : String
  durationMinutes : ℤ
  target : Option Dict
  gated : Bool
  reuseMinRemainingMinutes : Option ℤ

structure ElevationHandle where
  cloud : Cloud
  operation : String
  durationMinutes : ℤ
  entitleRequestId : Option String
  expiresAt : Option Instant
  activationRowId : Option String
  isNoop : Bool
  reused : Bool

/-- A message is that of the `CloudIdentityError`. -/
inductive Phase where
  | submitting
  | polling (requestId : String) (deadline : Instant)
  | asking (requestId : String) (deadline : Instant)
  | replied (requestId : String) (deadline : Instant) (payload : Dict)
  | yielded
  | exited
  | raised (message : String)
  deriving DecidableEq

/-- A call under the id of the row it creates, with the target and the minutes it settled on. -/
structure Call where
  id : String
  cloud : Cloud
  operation : String
  target : Dict
  minutes : ℤ
  phase : Phase

/-- A handle as it was handed out, and the grants that passes of the sweeper had dealt with. -/
structure Yielded where
  target : Option Dict
  minRemaining : Option ℤ
  moment : Instant
  covered : List String
  handle : ElevationHandle

def Args.target? (args : Args) (config : Config) : Option Dict :=
  args.target.or ((config.matrix.find? fun entry => entry.1 = args.operation).map Prod.snd)

/-- A caller without a switch of its own goes by the gate and the flag of its cloud. -/
def Args.dormant (args : Args) (config : Config) : Bool :=
  args.gated && !(config.gateEnabled && config.cloudEnabled args.cloud)

/-! ### Passes of the sweeper -/

/-- What a pass has changed on a row it loaded: it sets `revoked_at` on those it finds revoked. -/
structure Write where
  row : String
  revokedAt : Option Instant
  denialReason : String

def Write.status (write : Write) : Status := if write.revokedAt.isSome then .revoked else .failed

def Write.apply (write : Write) (row : EntitleActivation) : EntitleActivation :=
  { row with
    status := write.status
    revokedAt := write.revokedAt.or row.revokedAt
    denialReason := some write.denialReason }

def flush (rows : Rows) (writes : List Write) : Rows :=
  writes.foldl (fun rows write => rows.modify write.row write.apply fun _ => rfl) rows

/-- What a poll of the pass comes to; `entitleError` is the text of an `EntitleError`. -/
inductive Poll where
  | payload (payload : Dict)
  | entitleError (message : String)
  | raised
  deriving DecidableEq

/-- `before` are the grants revoked when the pass began. -/
structure Sweep where
  id : ℕ
  before : List String
  clouds : List Cloud
  current : Option Cloud
  rows : List EntitleActivation
  writes : List Write
  failed : Bool

def lookback : ℕ := Python.minutes (24 * 60)

/-- The query of `_sweep_one_cloud`. -/
def sweepRows (rows : Rows) (cloud : Cloud) (now : Instant) : List EntitleActivation :=
  rows.rows.filter fun row =>
    row.cloud = cloud ∧ row.status = .granted ∧ now ≤ row.requestedAt + lookback

def note (row : EntitleActivation) (text : String) : String :=
  row.denialReason.getD "" ++ " | sweeper: " ++ text

def isMissing (message : String) : Bool :=
  containsText (lower message) "not found" || containsText (lower message) "404"

/-- One row of the loop: what it writes, `none` when it leaves the row alone, and whether the poll
failed. -/
def sweepRow (row : EntitleActivation) (now : Instant) (poll : Poll) : Option Write × Bool :=
  if row.entitleRequestId.getD "" = "" then
    (some ⟨row.id, none, note row "missing entitle_request_id"⟩, false)
  else if ∃ expires ∈ row.expiresAt, expires ≤ now then
    (some ⟨row.id, some now, note row "past local TTL"⟩, false)
  else
    match poll with
    | .raised => (none, true)
    | .entitleError message =>
      if isMissing message then (some ⟨row.id, none, note row "entitle 404 / not found"⟩, false)
      else (none, true)
    | .payload payload =>
      match classifyMachineStatus payload with
      | (.granted, _) => (none, false)
      | (.denied, reason) =>
        (some ⟨row.id, some now, note row ("entitle status=" ++
          ((payload.get? "status").getD .null).text ++ " reason=" ++
          ((reason.filter Json.truthy).map Json.text).getD "(none)")⟩, false)
      | (.pending, _) => (none, false)

/-- A poll of a row's request that brings an answer brings one of Entitle's. -/
def Polled (lib : TimeLibrary) (requests : Requests) (row : EntitleActivation) (poll : Poll) : Prop :=
  ∀ payload, poll = .payload payload → ∀ requestId ∈ row.entitleRequestId,
    ∃ request ∈ requests.lookup requestId, request.Answers lib payload

instance (lib : TimeLibrary) (requests : Requests) (row : EntitleActivation) (poll : Poll) :
    Decidable (Polled lib requests row poll) :=
  match poll with
  | .payload payload =>
    decidable_of_iff (∀ requestId ∈ row.entitleRequestId,
        ∃ request ∈ requests.lookup requestId, request.Answers lib payload)
      ⟨fun h _ he => Poll.payload.inj he ▸ h, fun h => h payload rfl⟩
  | .entitleError _ => isTrue nofun
  | .raised => isTrue nofun

/-! ### The world -/

structure World where
  now : Instant
  config : Config
  rows : Rows
  requests : Requests
  calls : Table Call.id
  sweeps : Table Sweep.id
  yielded : List Yielded
  covered : List String

def World.start (config : Config) : World :=
  ⟨0, config, .empty, .empty, .empty, .empty, [], []⟩

inductive Label where
  | configure (config : Config)
  | elevate (id : String) (args : Args) (tie : ℕ)
  | submit (id : String) (answer : Except String String)
  | ask (id : String)
  | reply (id : String) (answer : Except String Dict)
  | hear (id : String)
  | timeout (id : String)
  | exit (id : String) (recorded : Bool)
  | decide (requestId : String) (decision : Decision)
  | beginSweep (id : ℕ)
  | nextCloud (id : ℕ)
  | sweepRow (id : ℕ) (poll : Poll)
  | breakCloud (id : ℕ)
  | commit (id : ℕ)
  | endSweep (id : ℕ)

def World.setPhase (w : World) (id : String) (phase : Phase) : World :=
  { w with calls := w.calls.modify id (fun call => { call with phase }) fun _ => rfl }

/-- The call writes to its row and goes on. -/
def World.record (w : World) (id : String) (fields : Fields) (phase : Phase) : World :=
  { w with rows := updateActivation w.rows id fields }.setPhase id phase

def World.setSweep (w : World) (id : ℕ) (f : Sweep → Sweep) (hf : ∀ sweep, (f sweep).id = sweep.id) :
    World :=
  { w with sweeps := w.sweeps.modify id f hf }

def World.handOut (w : World) (args : Args) (target : Option Dict) (handle : ElevationHandle) : World :=
  { w with yielded := w.yielded ++ [⟨target, args.reuseMinRemainingMinutes, w.now, w.covered, handle⟩] }

def noopHandle (args : Args) : ElevationHandle where
  cloud := args.cloud
  operation := args.operation
  durationMinutes := args.durationMinutes
  entitleRequestId := none
  expiresAt := none
  activationRowId := none
  isNoop := true
  reused := false

def reusedHandle (args : Args) (minutes : ℤ) (row : EntitleActivation) : ElevationHandle where
  cloud := args.cloud
  operation := args.operation
  durationMinutes := minutes
  entitleRequestId := row.entitleRequestId
  expiresAt := row.expiresAt
  activationRowId := some row.id
  isNoop := false
  reused := true

def grantedHandle (call : Call) (requestId : String) (expires : Instant) : ElevationHandle where
  cloud := call.cloud
  operation := call.operation
  durationMinutes := call.minutes
  entitleRequestId := some requestId
  expiresAt := some expires
  activationRowId := some call.id
  isNoop := false
  reused := false

def newActivationRow (id : String) (args : Args) (now : Instant) : EntitleActivation where
  id := id
  cloud := args.cloud
  operation := args.operation
  entitleRequestId := none
  status := .pending
  denialReason := none
  requestedAt := now
  grantedAt := none
  expiresAt := none
  revokedAt := none

/-- The row a call may reuse, when it asked to. -/
def World.reusable (w : World) (args : Args) (tie : ℕ) : Option EntitleActivation :=
  args.reuseMinRemainingMinutes.bind fun minutes =>
    liveActivation w.rows args.cloud args.operation (cutoff w.now minutes) tie

/-- `elevate` up to the submit. -/
def World.elevate (w : World) (id : String) (args : Args) (tie : ℕ) : Option World :=
  let minutes := min args.durationMinutes w.config.ceiling
  if args.dormant w.config then
    some (w.handOut args (args.target? w.config) (noopHandle args))
  else
    match (args.target? w.config).filter (! ·.isEmpty) with
    | none =>
      (w.calls.insert ⟨id, args.cloud, args.operation, [], minutes, .raised
        ("operation '" ++ args.operation ++ "' is not in cloud_identity_matrix; refusing to elevate. " ++
          "Populate the matrix in Settings → Integrations → Entitle.")⟩).map fun calls => { w with calls }
    | some target =>
      match w.reusable args tie with
      | some row => some (w.handOut args (some target) (reusedHandle args minutes row))
      | none =>
        (w.rows.insert (newActivationRow id args w.now)).bind fun rows =>
          (w.calls.insert ⟨id, args.cloud, args.operation, target, minutes, .submitting⟩).map fun calls =>
            let w' := { w with rows, calls }
            if strip w.config.machineIdentityEmail = "" then
              w'.record id
                { status := .failed, denialReason := some "machine identity email not configured" }
                (.raised ("entitle_machine_identity_email is empty; cannot submit a behalfOf request. " ++
                  "Configure the synthetic machine user and retry."))
            else w'

def World.refused (w : World) (id message : String) : World :=
  w.record id { status := .failed, denialReason := some (clip message) }
    (.raised ("Entitle submit failed: " ++ message))

/-- `submit_machine_request` and what follows it; `answer` is the id Entitle gives the request. -/
def World.submit (w : World) (call : Call) (answer : Except String String) : Option World :=
  match requestTarget call.target, answer with
  | .error message, _ => some (w.refused call.id message)
  | .ok _, .error message => some (w.refused call.id message)
  | .ok target, .ok requestId =>
    (w.requests.insert ⟨requestId, ⟨call.cloud, call.operation, target⟩, call.minutes * 60,
        .waiting⟩).map fun requests =>
      { w with requests }.record call.id
        { status := .pending, entitleRequestId := some requestId }
        (.polling requestId (later w.now (call.minutes * 60)))

/-- What the poll loop makes of an answer. -/
def World.hear (lib : TimeLibrary) (w : World) (call : Call) (requestId : String)
    (deadline : Instant) (payload : Dict) : World :=
  match classifyMachineStatus payload with
  | (.granted, _) =>
    let granted := (reportedStart lib payload).getD w.now
    let expires := (reportedEnd lib payload).getD (later w.now (call.minutes * 60))
    let w' := w.record call.id
      { status := .granted, grantedAt := some granted, expiresAt := some expires } .yielded
    { w' with
      yielded := w.yielded ++
        [⟨some call.target, none, w.now, w.covered, grantedHandle call requestId expires⟩] }
  | (.denied, reason) =>
    let given := reason.filter (· ≠ .null)
    w.record call.id { status := .denied, denialReason := given.map Json.text }
      (.raised ("Entitle denied request " ++ requestId ++ " (status=" ++
        ((payload.get? "status").getD .null).text ++ "): " ++
        ((reason.filter Json.truthy).map Json.text).getD "(no reason)"))
  | (.pending, _) => w.setPhase call.id (.polling requestId deadline)

def World.perform (lib : TimeLibrary) (w : World) : Label → Option World
  | .configure config => some { w with config }
  | .elevate id args tie => w.elevate id args tie
  | .submit id answer =>
    (w.calls.lookup id).bind fun call =>
      match call.phase with
      | .submitting => w.submit call answer
      | _ => none
  | .ask id =>
    (w.calls.lookup id).bind fun call =>
      match call.phase with
      | .polling requestId deadline =>
        if w.now < deadline then some (w.setPhase id (.asking requestId deadline)) else none
      | _ => none
  | .reply id answer =>
    (w.calls.lookup id).bind fun call =>
      match call.phase, answer with
      | .asking requestId deadline, .ok payload =>
        (w.requests.lookup requestId).bind fun request =>
          if request.Answers lib payload then
            some (w.setPhase id (.replied requestId deadline payload))
          else none
      | .asking _ _, .error message =>
        some (w.record id
          { status := .failed, denialReason := some (clip ("poll error: " ++ message)) }
          (.raised ("Entitle poll failed: " ++ message)))
      | _, _ => none
  | .hear id =>
    (w.calls.lookup id).bind fun call =>
      match call.phase with
      | .replied requestId deadline payload => some (w.hear lib call requestId deadline payload)
      | _ => none
  | .timeout id =>
    (w.calls.lookup id).bind fun call =>
      match call.phase with
      | .polling requestId deadline =>
        if deadline ≤ w.now then
          some (w.record id
            { status := .timeout,
              denialReason := some ("no terminal state within " ++ toString call.minutes ++ "m") }
            (.raised ("Entitle did not grant request " ++ requestId ++ " within " ++
              toString call.minutes ++ " minutes")))
        else none
      | _ => none
  | .exit id recorded =>
    (w.calls.lookup id).bind fun call =>
      match call.phase with
      | .yielded =>
        -- a failed update is logged and forgotten
        if recorded then some (w.record id { status := .completed } .exited)
        else some (w.setPhase id .exited)
      | _ => none
  | .decide requestId decision =>
    (w.requests.lookup requestId).bind fun request =>
      if request.decision.next w.now decision then
        some { w with
          requests := w.requests.modify requestId (fun request => { request with decision })
            fun _ => rfl }
      else none
  | .beginSweep id =>
    if w.config.gateEnabled ∧ w.config.sweepEnabled then
      let before := (w.requests.rows.filter (·.decision.isRevoked)).map Request.id
      (w.sweeps.insert ⟨id, before, [.aws, .azure, .gcp], none, [], [], false⟩).map fun sweeps =>
        { w with sweeps }
    else some w
  | .nextCloud id =>
    (w.sweeps.lookup id).bind fun sweep =>
      match sweep.current, sweep.clouds with
      | none, cloud :: clouds =>
        if w.config.cloudEnabled cloud then
          some (w.setSweep id (fun sweep => { sweep with
            clouds, current := some cloud, rows := sweepRows w.rows cloud w.now }) fun _ => rfl)
        else some (w.setSweep id (fun sweep => { sweep with clouds }) fun _ => rfl)
      | _, _ => none
  | .sweepRow id poll =>
    (w.sweeps.lookup id).bind fun sweep =>
      match sweep.rows with
      | row :: rows =>
        if Polled lib w.requests row poll then
          let (write, failed) := Elevation.sweepRow row w.now poll
          some (w.setSweep id (fun sweep => { sweep with
            rows, writes := sweep.writes ++ write.toList,
            failed := sweep.failed || failed }) fun _ => rfl)
        else none
      | [] => none
  | .breakCloud id =>
    (w.sweeps.lookup id).bind fun sweep =>
      match sweep.current with
      | some _ => some (w.setSweep id (fun sweep => { sweep with
          current := none, rows := [], failed := true }) fun _ => rfl)
      | none => none
  | .commit id =>
    (w.sweeps.lookup id).bind fun sweep =>
      match sweep.current, sweep.rows with
      | some _, [] =>
        some ({ w with rows := flush w.rows sweep.writes }.setSweep id (fun sweep => { sweep with
          current := none, writes := [] }) fun _ => rfl)
      | _, _ => none
  | .endSweep id =>
    (w.sweeps.lookup id).bind fun sweep =>
      match sweep.current, sweep.clouds with
      | none, [] =>
        let covered := if sweep.failed then w.covered else sweep.before ++ w.covered
        some { w with covered, sweeps := w.sweeps.erase id }
      | _, _ => none

def system (lib : TimeLibrary) : Machine.System World (Instant × Label) where
  step w
    | (now, label) => if w.now ≤ now then World.perform lib { w with now } label else none

end Elevation
