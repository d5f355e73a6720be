import VmDashboard.Machine.Except
import VmDashboard.Machine.Table
import VmDashboard.Python.Case
import VmDashboard.Python.Convert
import VmDashboard.Python.Clock
import VmDashboard.Windows.Recurrence

/-!
# Entitle, as the dashboard talks to it (`services/entitle_service.py`)

The request the dashboard files, what it reads of an answer, and the request as Entitle keeps it.
Entitle grants a request for its duration from the moment of the grant and may say so or not; what
it says is true.
-/

namespace Elevation
open Machine (Table)
open Python (Dict Instant Json later lower strip)
open Windows (TimeLibrary)

inductive Cloud where
  | aws
  | azure
  | gcp
  deriving DecidableEq

def Cloud.name : Cloud → String
  | .aws => "aws"
  | .azure => "azure"
  | .gcp => "gcp"

/-! ### What is sent -/

/-- A value under `key` that is not falsy. -/
def given? (d : Dict) (key : String) : Option Json := (d.get? key).filter Json.truthy

/-- `request_target`; an error is the text of the `EntitleError`. -/
def requestTarget (target : Dict) : Except String Dict :=
  if target.get? "type" = some (.str "role") ∨ target.get? "type" = some (.str "bundle") then
    .ok target
  else
    match given? target "bundle_id", given? target "role_id" with
    | some id, _ => .ok [("type", .str "bundle"), ("bundle", .obj [("id", .str id.text)])]
    | none, some id => .ok [("type", .str "role"), ("role", .obj [("id", .str id.text)])]
    | none, none =>
      .error ("Entitle target " ++ (Json.obj target).reprText ++
        " names neither a bundle_id nor a role_id")

/-! ### What is read -/

def grantedStates : List String := ["granted", "active"]

def deniedStates : List String :=
  ["denied", "rejected", "failed", "expired", "revoked", "cancelled", "canceled"]

inductive Category where
  | granted
  | denied
  | pending
  deriving DecidableEq

def classifyMachineStatus (payload : Dict) : Category × Option Json :=
  let raw := lower (strip (((given? payload "status").map Json.text).getD ""))
  let reason := (given? payload "denial_reason").or (payload.get? "reason")
  if raw ∈ grantedStates then (.granted, none)
  else if raw ∈ deniedStates then (.denied, reason)
  else (.pending, none)

/-- `_parse_dt`: naive UTC, `none` on a missing value or one that does not parse. -/
def parseDt (lib : TimeLibrary) (value : Option Json) : Option Instant :=
  (value.filter Json.truthy).bind fun value =>
    let s := (strip value.text).toList.flatMap fun c => if c = 'Z' then "+00:00".toList else [c]
    match lib.fromisoformat (String.ofList s) with
    | some (.aware t) => some t
    | some (.naive day time) => some (Windows.utc.instant day time)
    | none => none

def reportedStart (lib : TimeLibrary) (payload : Dict) : Option Instant :=
  (parseDt lib (payload.get? "granted_at")).or (parseDt lib (payload.get? "grantedAt"))

def reportedEnd (lib : TimeLibrary) (payload : Dict) : Option Instant :=
  (parseDt lib (payload.get? "expires_at")).or (parseDt lib (payload.get? "expiresAt"))

/-! ### The request as Entitle keeps it -/

/-- What a grant was asked for. The cloud and the operation are the dashboard's words. -/
structure Asked where
  cloud : Cloud
  operation : String
  target : Dict
  deriving DecidableEq

inductive Decision where
  | waiting
  | granted (since : Instant)
  | denied
  | revoked (since : Instant)
  deriving DecidableEq

/-- `duration` is in seconds. -/
structure Request where
  id : String
  asked : Asked
  duration : ℤ
  decision : Decision

abbrev Requests := Table Request.id

def Decision.since? : Decision → Option Instant
  | .granted since => some since
  | .revoked since => some since
  | _ => none

def Decision.isRevoked : Decision → Bool
  | .revoked _ => true
  | _ => false

def Decision.category : Decision → Category
  | .waiting => .pending
  | .granted _ => .granted
  | .denied => .denied
  | .revoked _ => .denied

/-- The moment the grant ends by itself. -/
def Request.ends? (request : Request) : Option Instant :=
  request.decision.since?.map (later · request.duration)

/-- An answer of Entitle about the request: the state it is in, and no moment but the true one. -/
structure Request.Answers (lib : TimeLibrary) (request : Request) (payload : Dict) : Prop where
  category : (classifyMachineStatus payload).1 = request.decision.category
  start : reportedStart lib payload = none ∨ reportedStart lib payload = request.decision.since?
  ends : reportedEnd lib payload = none ∨ reportedEnd lib payload = request.ends?

instance (lib : TimeLibrary) (request : Request) (payload : Dict) :
    Decidable (request.Answers lib payload) :=
  decidable_of_iff (_ ∧ _ ∧ _) ⟨fun ⟨h, h', h''⟩ => ⟨h, h', h''⟩, fun ⟨h, h', h''⟩ => ⟨h, h', h''⟩⟩

/-! ### Requests only move on -/

/-- What was asked and for how long stands, a grant keeps the moment it was made, and a revoke is
not undone. -/
def Later (requests requests' : Requests) : Prop :=
  ∀ id request, requests.lookup id = some request → ∃ request', requests'.lookup id = some request' ∧
    request'.asked = request.asked ∧ request'.duration = request.duration ∧
    (∀ since, request.decision.since? = some since → request'.decision.since? = some since) ∧
    (request.decision.isRevoked = true → request'.decision.isRevoked = true)

theorem Later.refl (requests : Requests) : Later requests requests :=
  fun _ request h => ⟨request, h, rfl, rfl, fun _ => id, id⟩

theorem later_insert {requests requests' : Requests} {request : Request}
    (h : requests.insert request = some requests') : Later requests requests' :=
  fun _ old hold => ⟨old, Table.lookup_insert_of_some h hold, rfl, rfl, fun _ => id, id⟩

/-- Entitle decides a request: one that waits is granted or denied, one that is granted is revoked. -/
def Decision.next (now : Instant) : Decision → Decision → Bool
  | .waiting, .granted since => since = now
  | .waiting, .denied => true
  | .granted since, .revoked since' => since = since'
  | _, _ => false

theorem Decision.since?_of_next {now : Instant} {old new : Decision} (h : old.next now new = true)
    {since : Instant} (hsince : old.since? = some since) : new.since? = some since := by
  cases old with
  | waiting => cases hsince
  | granted t =>
    cases new with
    | revoked t' =>
      have heq : t = t' := of_decide_eq_true h
      rw [← heq]
      exact hsince
    | _ => cases h
  | denied => cases hsince
  | revoked t => cases h

theorem Decision.not_revoked_of_next {now : Instant} {old new : Decision}
    (h : old.next now new = true) : old.isRevoked = false := by
  cases old with
  | revoked t => cases h
  | _ => rfl

theorem later_modify {requests : Requests} {id : String} {request : Request} {now : Instant}
    {decision : Decision} (hlookup : requests.lookup id = some request)
    (hnext : request.decision.next now decision = true) :
    Later requests (requests.modify id (fun request => { request with decision }) fun _ => rfl) := by
  intro id' old hold
  refine ⟨_, Table.lookup_modify_of_some _ (fun _ => by rfl) hold, ?_⟩
  split
  next heq =>
    subst heq
    obtain rfl : old = request := Option.some.inj (hold.symm.trans hlookup)
    have hnot := Decision.not_revoked_of_next hnext
    refine ⟨rfl, rfl, fun since hsince => Decision.since?_of_next hnext hsince, fun hrevoked => ?_⟩
    rw [hnot] at hrevoked
    cases hrevoked
  next => exact ⟨rfl, rfl, fun _ h => h, fun h => h⟩

end Elevation
