import VmDashboard.Machine.Columns
import VmDashboard.Python.Case
import VmDashboard.Python.Yaml
import VmDashboard.Workload.Lease

/-!
# The calls that serve a credential (`services/workload_credential_lease.py`)

`credentials`, `refresh`, `_serve_fresh` and `clear_backoff` over the rows of every cloud and purpose
and the memo of every process. The provider's generate and what the call was told by it are given
with the call.
-/

namespace Workload
open Machine (Store)
open Python (Instant seconds parseInt)

/-! ### Configuration -/

/-- What `config_service` answers: the text of a key, `""` where there is none, and `get_bool`. -/
structure Config where
  text : String → String
  flag : String → Bool

def clouds : List String := ["aws", "azure"]
def provision : String := "provision"
def readonly : String := "readonly"

def dynamicEnabled (config : Config) (cloud : String) : Bool :=
  clouds.contains cloud && config.flag "workload_credentials_enabled" &&
    config.flag ("wlc_" ++ cloud ++ "_enabled")

def hasDistinctReadonly (config : Config) (cloud : String) : Bool :=
  config.text ("wlc_" ++ cloud ++ "_readonly_secret_name") ≠ ""

def dynamicNameFor (config : Config) (cloud purpose : String) : String :=
  if purpose = readonly ∧ hasDistinctReadonly config cloud then
    config.text ("wlc_" ++ cloud ++ "_readonly_secret_name")
  else config.text ("wlc_" ++ cloud ++ "_secret_name")

def everydayFromFederation (config : Config) (cloud : String) : Bool :=
  clouds.contains cloud &&
    Python.lower (Python.strip (config.text ("wlc_" ++ cloud ++ "_everyday_source"))) = "federation"

/-- `explicit` is the purpose the task is marked with. -/
def defaultPurpose (config : Config) (explicit cloud : String) : String :=
  if explicit ≠ "" then explicit
  else if hasDistinctReadonly config cloud ∨ everydayFromFederation config cloud then readonly
  else provision

def effectivePurpose (config : Config) (cloud purpose : String) : String :=
  if purpose = readonly ∧ ¬hasDistinctReadonly config cloud ∧ ¬everydayFromFederation config cloud then
    provision
  else purpose

/-- The purpose of a call of `credentials`. -/
def resolvedPurpose (config : Config) (explicit cloud purpose : String) : String :=
  effectivePurpose config cloud
    (if purpose ≠ "" then purpose else defaultPurpose config explicit cloud)

def folderFor (config : Config) (cloud : String) : String :=
  config.text ("wlc_" ++ cloud ++ "_folder")

/-! ### The rows and the memos -/

/-- A cloud and a purpose. -/
abbrev Key := String × String

structure MemoEntry where
  values : String
  expiresAt : Option Instant
  readAt : Instant

/-- How a generate ends: it is recorded; it answers and the answer cannot be stored; the call dies. -/
inductive Ending
  | generated (outcome : Outcome)
  | unstored (result : Issued)
  | died

inductive Entry
  | attempt (key : Key) (start ended : Instant) (ending : Ending)
  | cleared (cloud purpose : String)

/-- The rows, the memos by process, and what has happened so far. -/
structure World where
  rows : Store Key Lease
  memo : Store (String × Key) MemoEntry
  clock : Instant
  log : List Entry

def World.start : World := ⟨fun _ => none, fun _ => none, 0, []⟩

def World.wait (w : World) (n : ℕ) : World := { w with clock := w.clock + n }

def memoTtlSeconds : ℕ := 20

/-- `_memo_get`. -/
def World.memoGet (w : World) (process : String) (key : Key) : Option String :=
  match w.memo (process, key) with
  | none => none
  | some hit =>
    if seconds memoTtlSeconds < w.clock - hit.readAt then none
    else if hit.expiresAt.any (fun expires => w.clock + seconds expirySafetySeconds < expires) then
      some hit.values
    else none

/-- `_memo_put`. -/
def World.memoPut (w : World) (process : String) (key : Key) (values : String)
    (expiresAt : Option Instant) : World :=
  { w with memo := w.memo.put (process, key) ⟨values, expiresAt, w.clock⟩ }

/-- `encrypt_value`, and `decrypt_value` with the parsing after it, `none` when one of them raises. -/
structure Vault where
  encrypt : String → String
  decrypt : String → Option String

/-- `_values_of`. -/
def valuesOf (vault : Vault) (row : Lease) : Option String :=
  (row.payload.filter (· ≠ "")).bind vault.decrypt

/-! ### One call -/

/-- What a call runs with: its process, the configuration it reads, whether it gets the lock of the
cloud, how long it takes to begin, to come to its claim and to its end, and how its generate ends. -/
structure Env where
  process : String
  config : Config
  explicit : String
  lock : Bool
  toStart : ℕ
  toClaim : ℕ
  toEnd : ℕ
  ending : Ending

inductive Answer
  | absent
  | values (values : String)
  | refreshed (issued : Bool)
  | cleared
  | unavailable (reason : String)
  | raised

/-- `_claim`: the rows, whether the call may mint, and the row as it was. -/
def World.claim (w : World) (env : Env) (key : Key) (force : Bool) : World × Bool × Option Lease :=
  if !env.lock then (w, false, w.rows key)
  else
    let row := w.rows.rowOr key .fresh
    match row.claim env.process w.clock force with
    | none => (w, false, some row)
    | some claimed => ({ w with rows := w.rows.put key claimed }, true, some row)

/-- `_unavailable_reason`. -/
def unavailableReason (key : Key) (snap : Option Lease) : String :=
  match (snap.bind Lease.lastError).filter (· ≠ "") with
  | some error =>
    "no usable " ++ key.1 ++ " credential for " ++ key.2 ++ "; last attempt failed: " ++ error
  | none => "no usable " ++ key.1 ++ " credential for " ++ key.2 ++ " and none could be minted"

def mintFailure (config : Config) (key : Key) (name error : String) : String :=
  let folder := folderFor config key.1
  "could not mint a " ++ key.1 ++ " credential from dynamic secret " ++
    (if folder = "" then "" else folder ++ "/") ++ name ++ ": " ++ error

def World.store (w : World) (key : Key) (f : Lease → Lease) : World :=
  { w with rows := w.rows.put key (f (w.rows.rowOr key .fresh)) }

/-- The values of a row that is still usable, put into the memo. -/
def World.serve (w : World) (vault : Vault) (env : Env) (key : Key) (snap : Option Lease) :
    Option (World × Answer) :=
  match snap with
  | none => none
  | some row =>
    if row.usable w.clock then
      (valuesOf vault row).map fun values =>
        (w.memoPut env.process key values row.expiresAt, .values values)
    else none

/-- What `_serve_or_mint` does with the claim it has got. -/
def mint (vault : Vault) (env : Env) (key : Key) (name : String) (w : World) : World × Answer :=
  let ended := w.wait env.toEnd
  let w := { ended with log := w.log ++ [.attempt key w.clock ended.clock env.ending] }
  match env.ending with
  | .died => (w, .raised)
  | .unstored _ => (w, .raised)
  | .generated (.failed error) =>
    (w.store key fun row => row.recordFailure w.clock error,
      .unavailable (mintFailure env.config key name error))
  | .generated (.issued result) =>
    let sealed := { result with values := vault.encrypt result.values }
    ((w.store key fun row => (row.recordSuccess w.clock sealed).1).memoPut env.process key
      result.values result.expiresAt, .values result.values)

/-- `_wait_for_winner`, and the refusal when it comes back with nothing. -/
def waitForWinner (vault : Vault) (env : Env) (key : Key) (snap : Option Lease) (w : World) :
    World × Answer :=
  (w.serve vault env key (w.rows key)).getD (w, .unavailable (unavailableReason key snap))

/-- `_serve_or_mint`. -/
def serveOrMint (vault : Vault) (env : Env) (key : Key) (name : String) (force : Bool) (w : World) :
    World × Answer :=
  match (w.wait env.toClaim).claim env key force with
  | (w, true, _) => mint vault env key name w
  | (w, false, snap) =>
    match w.serve vault env key snap with
    | some served => served
    | none =>
      if snap.any (·.claimed w.clock) then waitForWinner vault env key snap (w.wait env.toEnd)
      else (w, .unavailable (unavailableReason key snap))

/-- `_fresh_enough`. -/
def Lease.freshEnough (row : Lease) (now : Instant) (pct : ℤ) : Bool :=
  row.usable now &&
    match row.issuedAt, row.expiresAt with
    | some issued, some expires => ((expires : ℤ) - issued) * pct ≤ ((expires : ℤ) - now) * 100
    | _, _ => false

/-- `_serve_fresh`. -/
def serveFresh (vault : Vault) (env : Env) (key : Key) (name : String) (pct : ℤ) (w : World) :
    World × Answer :=
  match w.serve vault env key ((w.rows key).filter (·.freshEnough w.clock pct)) with
  | some served => served
  | none => serveOrMint vault env key name true w

def noSecretName (cloud : String) : String :=
  cloud ++ " is set to use Workload Credentials but no dynamic secret name is configured (wlc_" ++
    cloud ++ "_secret_name)"

def credentials (vault : Vault) (env : Env) (cloud purpose : String) (minRemainingPct : ℤ)
    (w : World) : World × Answer :=
  let config := env.config
  if !dynamicEnabled config cloud then (w, .absent)
  else
    let purpose := resolvedPurpose config env.explicit cloud purpose
    if purpose = readonly ∧ everydayFromFederation config cloud then (w, .absent)
    else
      match w.memoGet env.process (cloud, purpose) with
      | some values => (w, .values values)
      | none =>
        let name := dynamicNameFor config cloud purpose
        if name = "" then (w, .unavailable (noSecretName cloud))
        else if minRemainingPct ≠ 0 then
          serveFresh vault env (cloud, purpose) name minRemainingPct w
        else serveOrMint vault env (cloud, purpose) name false w

/-- `refresh_due` of `workload_credentials_service`. -/
def refreshDue (expiresAt issuedAt : Option Instant) (marginPct : ℤ) (now : Instant) : Bool :=
  match expiresAt with
  | none => true
  | some expires =>
    let pct := min 99 (max 1 (if marginPct = 0 then 50 else marginPct))
    if expires ≤ now then true
    else
      match issuedAt with
      | none => ((expires : ℤ) - now) * 100 ≤ seconds 3600 * pct
      | some issued =>
        (expires : ℤ) - issued ≤ 0 || ((expires : ℤ) - now) * 100 ≤ ((expires : ℤ) - issued) * pct

def refreshMargin (config : Config) : Option ℤ :=
  let text := config.text "wlc_refresh_margin_pct"
  parseInt (if text = "" then "50" else text)

/-- What `refresh` returns: a `LeaseUnavailable` is logged. -/
def renewed (served : World × Answer) : World × Answer :=
  (served.1, match served.2 with
    | .unavailable _ => .refreshed false
    | .raised => .raised
    | _ => .refreshed true)

def refresh (vault : Vault) (env : Env) (cloud purpose : String) (force : Bool) (w : World) :
    World × Answer :=
  let config := env.config
  if !dynamicEnabled config cloud then (w, .refreshed false)
  else
    let purpose := effectivePurpose config cloud purpose
    let name := dynamicNameFor config cloud purpose
    if name = "" then (w, .refreshed false)
    else
      let renew := renewed (serveOrMint vault env (cloud, purpose) name true w)
      match w.rows (cloud, purpose) with
      | none => renew
      | some row =>
        if row.inBackoff w.clock then (w, .refreshed false)
        else if !force && row.usable w.clock then
          match refreshMargin config with
          | none => (w, .raised)
          | some margin =>
            if refreshDue row.expiresAt row.issuedAt margin w.clock then renew
            else (w, .refreshed false)
        else renew

/-- The filters of `clear_backoff`. -/
def Covers (cloud purpose : String) (key : Key) : Prop :=
  (cloud = "" ∨ key.1 = cloud) ∧ (purpose = "" ∨ key.2 = purpose)

instance (cloud purpose : String) (key : Key) : Decidable (Covers cloud purpose key) :=
  inferInstanceAs (Decidable (_ ∧ _))

def clearBackoff (cloud purpose : String) (w : World) : World :=
  { w with
    rows := w.rows.mapRows fun key row => if Covers cloud purpose key then row.clearBackoff else row
    log := w.log ++ [.cleared cloud purpose] }

/-! ### Runs -/

inductive Call
  | credentials (env : Env) (cloud purpose : String) (minRemainingPct : ℤ)
  | refresh (env : Env) (cloud purpose : String) (force : Bool)
  | serveFresh (env : Env) (key : Key) (name : String) (pct : ℤ)
  | clearBackoff (cloud purpose : String)

def World.perform (vault : Vault) (w : World) : Call → World × Answer
  | .credentials env cloud purpose pct =>
    Workload.credentials vault env cloud purpose pct (w.wait env.toStart)
  | .refresh env cloud purpose force =>
    Workload.refresh vault env cloud purpose force (w.wait env.toStart)
  | .serveFresh env key name pct => Workload.serveFresh vault env key name pct (w.wait env.toStart)
  | .clearBackoff cloud purpose => (Workload.clearBackoff cloud purpose w, .cleared)

def credentialSystem (vault : Vault) : Machine.System World Call where
  step w call := some (w.perform vault call).1

end Workload
