import VmDashboard.Python.Base64
import VmDashboard.Python.Clock
import VmDashboard.Python.JsonText
import VmDashboard.Python.Yaml

/-!
# Signed agent requests (`services/agent_signing.py`)

What a signature covers, and how far its timestamp may be from the server's
clock. SHA-256 and Ed25519 are arguments.
-/

namespace AgentAuth
open Python (Bytes Instant Json parseInt seconds utf8Encode)

def signatureWindowSeconds : ℕ := 60

def publicKeyBytes : ℕ := 32

def signatureBytes : ℕ := 64

/-- What `hashlib` and `cryptography` give: the hexadecimal digest, whether 32 bytes are a key, and
whether a signature of a message verifies with a key. -/
structure Primitives where
  sha256 : Bytes → String
  publicLoads : Bytes → Bool
  verify : (key signature message : Bytes) → Bool

/-- A request as it arrives. -/
structure Request where
  agentId : String
  timestamp : String
  nonce : String
  signature : String
  audience : String
  method : String
  path : String
  body : Bytes
  deriving DecidableEq

variable (P : Primitives)

def serialize (payload : Json) : Bytes := utf8Encode payload.compact

/-- `text.upper()`, for the letters that the name of a method has. -/
def upper (text : String) : String := text.map Char.toUpper

def canonicalRequest (req : Request) : Bytes :=
  serialize (.obj [("aud", .str req.audience), ("id", .str req.agentId),
    ("method", .str (upper req.method)), ("nonce", .str req.nonce), ("path", .str req.path),
    ("sha256", .str (P.sha256 req.body)), ("ts", .str req.timestamp)])

def loadPublicKey (publicB64 : String) : Option Bytes :=
  match Python.b64decode publicB64.toList with
  | some raw => if raw.length = publicKeyBytes ∧ P.publicLoads raw then some raw else none
  | none => none

def verifyBytes (publicB64 signatureB64 : String) (message : Bytes) : Bool :=
  match loadPublicKey P publicB64, Python.b64decode signatureB64.toList with
  | some key, some signature =>
    if signature.length ≠ signatureBytes then false else P.verify key signature message
  | _, _ => false

/-- The integers that no float is near enough to: `int too large to convert to float`. -/
def tooLarge (n : ℤ) : Bool := 2 ^ 1024 - 2 ^ 970 ≤ n.natAbs

/-- `none` when the subtraction raises. -/
def timestampFresh (timestamp : String) (now : Instant) : Option Bool :=
  match parseInt timestamp with
  | none => some false
  | some ts =>
    if tooLarge ts then none
    else some (((now : ℤ) - ts * (seconds 1 : ℕ)).natAbs ≤ seconds signatureWindowSeconds)

def verifyRequest (publicB64 : String) (req : Request) (now : Instant) : Option Bool :=
  (timestampFresh req.timestamp now).map fun fresh =>
    fresh && verifyBytes P publicB64 req.signature (canonicalRequest P req)

/-- A request that verifies carries a timestamp within the window, on either side. -/
theorem fresh_of_verifyRequest {P : Primitives} {publicB64 : String} {req : Request} {now : Instant}
    (h : verifyRequest P publicB64 req now = some true) :
    ∃ ts, parseInt req.timestamp = some ts ∧
      ts * (seconds 1 : ℕ) ≤ now + seconds signatureWindowSeconds ∧
        (now : ℤ) ≤ ts * (seconds 1 : ℕ) + seconds signatureWindowSeconds := by
  obtain ⟨fresh, hfresh, hand⟩ := Option.map_eq_some_iff.mp h
  obtain ⟨rfl, -⟩ := (Bool.and_eq_true _ _).mp hand
  unfold timestampFresh at hfresh
  split at hfresh
  · cases hfresh
  next ts hts =>
    split at hfresh
    · cases hfresh
    · have hle := of_decide_eq_true (Option.some.inj hfresh)
      exact ⟨ts, hts, by omega, by omega⟩

end AgentAuth
