import Mathlib.Data.Rat.Floor
import VmDashboard.Machine.Table
import VmDashboard.Python.Base64
import VmDashboard.Python.Case
import VmDashboard.Python.Clock

/-!
# JWT-SVIDs as client assertions

`services/spiffe_assertion.py`: `verify`, `consume` and `authenticate` for one
signed assertion, whose header and payload are fixed. What presents it chooses
the text of the signature segment. `validSignature` is the signature check of
python-jose and `sha256` the digest in the key of a replay row.
-/

namespace Spiffe
open Machine (Table)
open Python (Instant)

def assertionLeeway : ℕ := 30

def maxAssertionLifetime : ℕ := 3600

def authMethod : String := "spiffe_jwt"

def replayPrefix : String := "vmcli:spiffe:assertion:"

def asymmetricAlgs : List String :=
  ["RS256", "RS384", "RS512", "PS256", "PS384", "PS512", "ES256", "ES384", "ES512"]

/-- The header and the payload, and the text that is signed. `exp` is `float(claims["exp"])`. -/
structure Svid where
  signingInput : String
  alg : String
  kid : Option String
  sub : String
  aud : List String
  exp : ℚ

structure OAuthClient where
  clientId : String
  spiffeId : Option String
  authMethod : String
  isActive : Bool
  userId : String

structure User where
  id : String
  username : String
  isServiceAccount : Bool
  isActive : Bool

inductive Refusal
  | malformed
  | algorithm
  | subject
  /-- No row for the trust domain, or its keys cannot be had. -/
  | unregistered
  | noKeys
  | signature
  | expired
  | audience
  | longLived
  | noClient
  | account (problem : String)
  | used
  deriving DecidableEq

/-- `""` for anything that is not a SPIFFE ID. -/
def trustDomainOf (spiffeId : String) : String :=
  match List.dropPrefix? (Python.strip spiffeId).toList "spiffe://".toList with
  | none => ""
  | some rest =>
    let td := rest.takeWhile fun c => c ≠ '/'
    if td ≠ [] && !td.contains '@' && !td.contains ':' then Python.lower (String.ofList td) else ""

/-! ### Times -/

/-- `int(exp)`. -/
def wholeSeconds (exp : ℚ) : ℤ := if 0 ≤ exp then ⌊exp⌋ else ⌈exp⌉

/-- `utcfromtimestamp`, to the microsecond, halves to even. -/
def utcfromtimestamp (timestamp : ℚ) : ℤ :=
  let micros := timestamp * 1000000
  let whole := ⌊micros⌋
  let part := micros - whole
  if part < 1 / 2 then whole
  else if 1 / 2 < part then whole + 1
  else if whole % 2 = 0 then whole
  else whole + 1

/-- The second of the clock python-jose compares: it drops the fraction. -/
def clockSecond (now : Instant) : ℤ := ((now / 1000000 : ℕ) : ℤ)

/-- python-jose's check of `exp` with the leeway. -/
def Svid.live (svid : Svid) (now : Instant) : Bool :=
  clockSecond now ≤ wholeSeconds svid.exp + assertionLeeway

/-- When the replay row of the assertion expires. -/
def Svid.rowExpiry (svid : Svid) : ℤ := utcfromtimestamp (svid.exp + assertionLeeway)

/-! ### A call -/

/-- What the database and the key sources answer during one call. -/
structure Directory (K : Type*) where
  /-- `keys_for`, after a resync of the dashboard's own bundle. -/
  keysFor : String → Option String → Option (List K)
  clients : List OAuthClient
  users : List User

/-- A call of `authenticate`: the text of the signature segment, the clock where `verify`, the
token library and `consume` read it, and whether the caller commits. -/
structure Presentation (K : Type*) where
  segment : String
  audiences : List String
  clientId : String
  directory : Directory K
  verifiedAt : Instant
  decodedAt : Instant
  consumedAt : Instant
  commits : Bool

variable {K : Type*} (validSignature : K → String → String → List ℕ → Bool) (sha256 : String → String)

/-- python-jose's `base64url_decode`. -/
def base64urlDecode (text : String) : Option (List ℕ) :=
  let input := Python.utf8 text
  let rem := input.length % 4
  Python.urlsafeB64decode (if 0 < rem then input ++ List.replicate (4 - rem) 61 else input)

def Svid.text (svid : Svid) (segment : String) : String := svid.signingInput ++ "." ++ segment

def verify (svid : Svid) (p : Presentation K) : Except Refusal Unit :=
  -- the segment is what follows the last dot
  if p.segment.toList.contains '.' then .error .malformed
  else
    match base64urlDecode p.segment with
    | none => .error .malformed
    | some signature =>
      if !asymmetricAlgs.contains svid.alg then .error .algorithm
      else if trustDomainOf svid.sub = "" then .error .subject
      else
        match p.directory.keysFor (trustDomainOf svid.sub) svid.kid with
        | none => .error .unregistered
        | some [] => .error .noKeys
        | some keys =>
          if !keys.any fun key => validSignature key svid.alg svid.signingInput signature then
            .error .signature
          else if !svid.live p.decodedAt then .error .expired
          else if !svid.aud.any fun aud => p.audiences.contains aud then .error .audience
          else if maxAssertionLifetime < svid.exp - (p.verifiedAt : ℚ) / 1000000 then
            .error .longLived
          else .ok ()

/-- Why the row cannot hold an OAuth client, or `none`. -/
def serviceAccountProblem : Option User → Option String
  | none => some "No such service account."
  | some user =>
    if !user.isServiceAccount then
      some ("'" ++ user.username ++ "' is a person's account. OAuth clients belong to service accounts " ++
        "only -- create one under Users → Service accounts.")
    else if !user.isActive then some ("'" ++ user.username ++ "' is disabled.")
    else none

/-- The client the call resolves, before `consume`. -/
def resolveClient (svid : Svid) (p : Presentation K) : Except Refusal OAuthClient := do
  verify validSignature svid p
  match p.directory.clients.find? fun client => client.spiffeId = some svid.sub &&
      client.authMethod = authMethod && client.isActive &&
      (p.clientId = "" || client.clientId = p.clientId) with
  | none => .error .noClient
  | some client =>
    match serviceAccountProblem (p.directory.users.find? fun user => user.id = client.userId) with
    | some problem => .error (.account problem)
    | none => .ok client

/-! ### The replay table -/

structure Replay where
  key : String
  expiresAt : ℤ

abbrev ReplayTable := Table Replay.key

def replayKey (svid : Svid) (segment : String) : String :=
  replayPrefix ++ sha256 (svid.text segment)

/-- The rows `which` does not select or that have not expired. -/
def sweepReplay (rows : ReplayTable) (now : Instant) (which : String → Bool) : ReplayTable :=
  ⟨rows.rows.filter fun row => !(which row.key && row.expiresAt < (now : ℤ)),
    rows.nodup.sublist (List.filter_sublist.map _)⟩

/-- `key LIKE 'vmcli:spiffe:assertion:%'`. -/
def isReplayKey (key : String) : Bool := replayPrefix.toList.isPrefixOf key.toList

def consume (svid : Svid) (p : Presentation K) (rows : ReplayTable) : Except Refusal ReplayTable :=
  match (sweepReplay rows p.consumedAt isReplayKey).insert
      ⟨replayKey sha256 svid p.segment, svid.rowExpiry⟩ with
  | none => .error .used
  | some after => .ok after

def authenticate (svid : Svid) (p : Presentation K) (rows : ReplayTable) :
    Except Refusal (OAuthClient × ReplayTable) := do
  let client ← resolveClient validSignature svid p
  let after ← consume sha256 svid p rows
  return (client, after)

end Spiffe
