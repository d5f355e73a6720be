import VmDashboard.Python.Url
import VmDashboard.Sealing.Seal

/-!
# The two proofs of a runner's identity

`verify_ecs` and `verify_gcp` of `services/runner_credential.py`, and `binding` and `gcp_audience` of
`services/runner_fetch.py`. STS and Google are asked through `Services`; `digest` is the SHA-256 of a
text in hexadecimal and `nfkc` the normalisation that `urlparse` uses.
-/

namespace Runners
open Python (Dict Json)
open Sealing (raiseUnless)

/-! ### Settings and services -/

structure Config where
  ecsTaskRole : String
  gcpRunnerSa : String
  audience : String
  deriving DecidableEq

/-- What a verification asks the outside. STS answers a status and a document; both calls may raise. -/
structure Services where
  config : Config
  stsPost : (url : String) → (headers : List (String × String)) → (body : String) →
    Except String (ℤ × Json)
  verifyGoogle : (idToken audience : String) → Except String Dict

def route : String := "/api/agent/runner-credential"

def Config.callbackUrl (config : Config) : String :=
  if config.audience = "" then "" else config.audience ++ route

def stsBody : String := "Action=GetCallerIdentity&Version=2011-06-15"

def bindingHeader : String := "x-dashboard-runner-binding"

/-! ### Patterns -/

section Patterns
variable (alnum : Char → Bool)

/-- `[\w+=,.@-]`; `alnum` says which characters outside ASCII are word characters. -/
def isNameChar (c : Char) : Bool :=
  Python.isAsciiLetter c || Python.isAsciiDigit c || c = '_' || (128 ≤ c.toNat && alnum c) ||
    "+=,.@-".toList.contains c

/-- The rest of `cs` after `text`. -/
def dropText (text : String) (cs : List Char) : Option (List Char) :=
  if text.toList <+: cs then some (cs.drop text.length) else none

/-- `(\d{12}):` and what follows it. -/
def splitAccount (cs : List Char) : Option (List Char × List Char) :=
  let account := cs.take 12
  if account.length = 12 ∧ account.all Python.isDecimal then
    match cs.drop 12 with
    | ':' :: rest => some (account, rest)
    | _ => none
  else none

/-- `^arn:aws:iam::(\d{12}):role/(?:[\w+=,.@-]+/)*([\w+=,.@-]+)$`, its two groups. -/
def roleArn (text : String) : Option (List Char × List Char) := do
  let rest ← dropText "arn:aws:iam::" (Python.beforeEnd text.toList)
  let (account, rest) ← splitAccount rest
  let rest ← dropText "role/" rest
  let parts := rest.splitOn '/'
  if parts.all fun part => part ≠ [] && part.all (isNameChar alnum) then
    return (account, parts.getLastD [])
  else none

/-- `^arn:aws:sts::(\d{12}):assumed-role/([\w+=,.@-]+)/[\w+=,.@-]+$`, its two groups. -/
def assumedRole (text : String) : Option (List Char × List Char) := do
  let rest ← dropText "arn:aws:sts::" (Python.beforeEnd text.toList)
  let (account, rest) ← splitAccount rest
  let rest ← dropText "assumed-role/" rest
  match rest.splitOn '/' with
  | [role, session] =>
    if role ≠ [] ∧ session ≠ [] ∧ (role ++ session).all (isNameChar alnum) then
      return (account, role)
    else none
  | _ => none

end Patterns

def isLowerLetter (c : Char) : Bool := 'a' ≤ c && c ≤ 'z'

/-- `^[a-z]{2}(-[a-z]+)+-\d$`. -/
def isRegion (region : List Char) : Bool :=
  match (Python.beforeEnd region).splitOn '-' with
  | first :: rest =>
    first.length = 2 && first.all isLowerLetter && 2 ≤ rest.length &&
      rest.dropLast.all (fun part => part ≠ [] && part.all isLowerLetter) &&
      (rest.getLastD []).length = 1 && (rest.getLastD []).all Python.isDecimal
  | [] => false

/-- `re.search(r"SignedHeaders=([^,\s]+)", auth)`, its group or `""`. -/
def signedHeaders : List Char → List Char
  | [] => []
  | c :: cs =>
    let found := (dropText "SignedHeaders=" (c :: cs)).map fun rest =>
      rest.takeWhile fun c => c ≠ ',' && !Python.isSpace c
    match found with
    | some (d :: rest) => d :: rest
    | _ => signedHeaders cs

/-! ### Amazon -/

/-- `value.get(name)`, which raises for a value that is no dictionary. -/
def getOf (value : Json) (name : String) : Except String (Option Json) :=
  match value with
  | .obj items => .ok (Dict.get? items name)
  | _ => .error "object has no attribute 'get'"

/-- `value or {}`. -/
def orEmptyDict : Option Json → Json
  | some value => if value.truthy then value else .obj []
  | none => .obj []

/-- `str(value or "")`. -/
def orEmptyText : Option Json → String
  | some value => if value.truthy then value.text else ""
  | none => ""

/-- `{str(k).lower(): str(v) …}`; of two keys with one lower case the last gives the value. -/
def lowerKeys (items : Dict) : List (String × String) :=
  (Dict.update [] (items.map fun item => (Python.lower item.1, .str item.2.text))).map fun item =>
    (item.1, item.2.text)

def headersOf : Json → Except String (List (String × String))
  | .obj items => .ok (lowerKeys items)
  | _ => .error "object has no attribute 'items'"

def forwarded : List String :=
  ["authorization", "content-type", "x-amz-date", "x-amz-security-token", bindingHeader]

def forwardOf (headers : List (String × String)) : List (String × String) :=
  (forwarded.filterMap fun name => (headers.lookup name).map (name, ·)) ++
    [("accept", "application/json")]

/-- `p.hostname[len("sts."):-len(".amazonaws.com")]`, of a regional STS host. -/
def regionOf (hostname : Option String) : List Char :=
  let host := (hostname.getD "").toList
  if "sts.".toList <+: host ∧ ".amazonaws.com".toList <:+ host then
    (host.drop 4).take (host.length - 18)
  else []

def isRegionalSts (parts : Python.ParseResult) : Bool :=
  let region := regionOf parts.hostname
  parts.scheme = "https".toList &&
    parts.netloc = "sts.".toList ++ region ++ ".amazonaws.com".toList && isRegion region &&
    parts.path = ['/'] && parts.query = [] && parts.params = [] && parts.fragment = []

section Verify
variable (digest : String → String) (alnum : Char → Bool) (nfkc : List Char → List Char)

def binding (token : String) : String := digest token

def gcpAudience (url token : String) : String := url ++ "?binding=" ++ binding digest token

def orRaise {α : Type} (value : Option α) (message : String) : Except String α :=
  match value with
  | some value => .ok value
  | none => .error message

def isDict : Json → Bool
  | .obj _ => true
  | _ => false

/-- `proof.get("…") == text`. -/
def isText (value : Option Json) (text : String) : Bool :=
  match value with
  | some (.str found) => found = text
  | _ => false

/-- The ARN in what STS answered. -/
def callerArn (doc : Json) : Except String String := do
  let response ← getOf doc "GetCallerIdentityResponse"
  let result ← getOf (orEmptyDict response) "GetCallerIdentityResult"
  let arn ← getOf (orEmptyDict result) "Arn"
  return orEmptyText arn

def verifyEcs (services : Services) (proof : Json) (token : String) : Except String String := do
  let role ← orRaise (roleArn alnum services.config.ecsTaskRole)
    "no ECS task role is configured to verify against"
  raiseUnless (isDict proof) "the ECS proof is not a presigned POST"
  let method ← getOf proof "method"
  raiseUnless (isText method "POST") "the ECS proof is not a presigned POST"
  let url ← getOf proof "url"
  let url := orEmptyText url
  let parts ← orRaise (Python.urlparse nfkc url) "Invalid URL"
  raiseUnless (isRegionalSts parts) "the ECS proof is not addressed to a regional STS endpoint"
  let body ← getOf proof "body"
  raiseUnless (isText body stsBody) "the ECS proof is not a GetCallerIdentity call"
  let headers ← getOf proof "headers"
  let headers ← headersOf (orEmptyDict headers)
  let auth := (headers.lookup "authorization").getD ""
  let signed := (signedHeaders auth.toList).splitOn ';'
  raiseUnless (signed.contains bindingHeader.toList && signed.contains "host".toList)
    "the ECS proof does not sign this run's binding"
  raiseUnless (headers.lookup bindingHeader = some (binding digest token))
    "the ECS proof was made for a different token"
  let (status, doc) ← services.stsPost url (forwardOf headers) stsBody
  raiseUnless (status = 200) ("STS did not accept the ECS proof (" ++ toString status ++ ")")
  let arn ← callerArn doc
  raiseUnless (assumedRole alnum arn = some role)
    "the ECS task is not running as the configured runner task role"
  return arn

/-! ### Google -/

def verifyGcp (services : Services) (proof : Json) (token : String) : Except String String := do
  let sa := services.config.gcpRunnerSa
  raiseUnless (sa.toList.contains '@') "no Cloud Run runner service account is configured"
  let raw := match proof with
    | .obj items => orEmptyText (Dict.get? items "id_token")
    | _ => ""
  raiseUnless (raw.toList.count '.' = 2) "the Cloud Run proof is not an ID token"
  let want := gcpAudience digest services.config.callbackUrl token
  let claims ← (services.verifyGoogle raw want).mapError fun kind =>
    "Google did not verify the Cloud Run proof (" ++ kind ++ ")"
  raiseUnless (isText (claims.get? "aud") want) "the Cloud Run proof was made for a different token"
  raiseUnless (isText (claims.get? "email") sa &&
      (match claims.get? "email_verified" with | some (.bool true) => true | _ => false))
    "the Cloud Run task is not running as the configured runner service account"
  return sa

/-- The verifier of the runner that a grant is for. -/
def verify (services : Services) (runner : String) (proof : Json) (token : String) :
    Except String String :=
  if runner = "ecs" then verifyEcs digest alnum nfkc services proof token
  else verifyGcp digest services proof token

/-! ### What an accepted proof says -/

/-- STS names the configured role for a request that signs this token's binding, or Google verified
the configured account for the audience with this token's binding. -/
def Vouched (services : Services) (runner token identity : String) : Prop :=
  if runner = "ecs" then
    ∃ url headers doc, headers.lookup bindingHeader = some (binding digest token) ∧
      bindingHeader.toList ∈
        (signedHeaders ((headers.lookup "authorization").getD "").toList).splitOn ';' ∧
      services.stsPost url (forwardOf headers) stsBody = .ok (200, doc) ∧
      callerArn doc = .ok identity ∧ (assumedRole alnum identity).isSome ∧
      assumedRole alnum identity = roleArn alnum services.config.ecsTaskRole
  else
    ∃ raw claims, services.verifyGoogle raw
        (gcpAudience digest services.config.callbackUrl token) = .ok claims ∧
      isText (claims.get? "aud") (gcpAudience digest services.config.callbackUrl token) = true ∧
      isText (claims.get? "email") identity = true ∧ identity = services.config.gcpRunnerSa

theorem raiseUnless_eq_ok {holds : Bool} {message : String} {u : Unit}
    (h : raiseUnless holds message = .ok u) : holds = true := by
  unfold raiseUnless at h
  split at h
  next hholds => exact hholds
  next => cases h

theorem orRaise_eq_ok {α : Type} {value : Option α} {message : String} {a : α}
    (h : orRaise value message = .ok a) : value = some a := by
  unfold orRaise at h
  split at h
  next => rw [Except.ok.inj h]
  next => cases h

variable {digest alnum nfkc}

theorem verifyEcs_eq_ok {services : Services} {proof : Json} {token identity : String}
    (h : verifyEcs digest alnum nfkc services proof token = .ok identity) :
    Vouched digest alnum services "ecs" token identity := by
  obtain ⟨role, hrole, h⟩ := Machine.bind_eq_ok h
  obtain ⟨-, -, h⟩ := Machine.bind_eq_ok h
  obtain ⟨method, -, h⟩ := Machine.bind_eq_ok h
  obtain ⟨-, -, h⟩ := Machine.bind_eq_ok h
  obtain ⟨url, -, h⟩ := Machine.bind_eq_ok h
  obtain ⟨parts, -, h⟩ := Machine.bind_eq_ok h
  obtain ⟨-, -, h⟩ := Machine.bind_eq_ok h
  obtain ⟨body, -, h⟩ := Machine.bind_eq_ok h
  obtain ⟨-, -, h⟩ := Machine.bind_eq_ok h
  obtain ⟨found, -, h⟩ := Machine.bind_eq_ok h
  obtain ⟨headers, -, h⟩ := Machine.bind_eq_ok h
  obtain ⟨_, hsigned, h⟩ := Machine.bind_eq_ok h
  obtain ⟨_, hbinding, h⟩ := Machine.bind_eq_ok h
  obtain ⟨⟨status, doc⟩, hsts, h⟩ := Machine.bind_eq_ok h
  obtain ⟨_, hstatus, h⟩ := Machine.bind_eq_ok h
  obtain ⟨arn, harn, h⟩ := Machine.bind_eq_ok h
  obtain ⟨_, hassumed, h⟩ := Machine.bind_eq_ok h
  obtain rfl := Except.ok.inj h
  have hsigned := (Bool.and_eq_true_iff.mp (raiseUnless_eq_ok hsigned)).1
  have hbinding := of_decide_eq_true (raiseUnless_eq_ok hbinding)
  have hstatus := of_decide_eq_true (raiseUnless_eq_ok hstatus)
  have hassumed := of_decide_eq_true (raiseUnless_eq_ok hassumed)
  subst hstatus
  unfold Vouched
  rw [if_pos rfl]
  refine ⟨_, headers, doc, hbinding, List.contains_iff_mem.mp hsigned, hsts, harn, ?_, ?_⟩
  · rw [hassumed]
    rfl
  · rw [hassumed, orRaise_eq_ok hrole]

theorem mapError_eq_ok {ε α : Type} {x : Except ε α} {f : ε → ε} {a : α}
    (h : x.mapError f = .ok a) : x = .ok a := by
  cases x with
  | error e => cases h
  | ok b => exact h

theorem verifyGcp_eq_ok {services : Services} {runner token identity : String} {proof : Json}
    (hrunner : runner ≠ "ecs") (h : verifyGcp digest services proof token = .ok identity) :
    Vouched digest alnum services runner token identity := by
  obtain ⟨-, -, h⟩ := Machine.bind_eq_ok h
  obtain ⟨-, -, h⟩ := Machine.bind_eq_ok h
  obtain ⟨claims, hclaims, h⟩ := Machine.bind_eq_ok h
  obtain ⟨_, haud, h⟩ := Machine.bind_eq_ok h
  obtain ⟨_, hemail, h⟩ := Machine.bind_eq_ok h
  obtain rfl := Except.ok.inj h
  unfold Vouched
  rw [if_neg hrunner]
  exact ⟨_, claims, mapError_eq_ok hclaims, raiseUnless_eq_ok haud,
    (Bool.and_eq_true_iff.mp (raiseUnless_eq_ok hemail)).1, rfl⟩

theorem verify_eq_ok {services : Services} {runner token identity : String} {proof : Json}
    (h : verify digest alnum nfkc services runner proof token = .ok identity) :
    Vouched digest alnum services runner token identity := by
  unfold verify at h
  split at h
  next hecs =>
    subst hecs
    exact verifyEcs_eq_ok h
  next hgcp => exact verifyGcp_eq_ok hgcp h

end Verify

end Runners
