import VmDashboard.Machine.Dialogue
import VmDashboard.Python.Convert
import VmDashboard.Python.Equality
import VmDashboard.Rollouts.Machine

/-!
# The updater as a program (`runners/agent-updater/updater.py`)

What it asks of its files, of cosign and of Docker, call by call, with the references and settings it
passes on; `Updater/Handle` follows the same code on a host. Answers are whatever they are: where the
source would raise on the shape of one, the pass is lost.
-/

namespace Upgrading
open Machine (Dialogue)
open Python (Dict Json orElse strip reprText isDigest isVersion)

inductive Question
  | alive
  /-- `yaml.safe_load` of `policy.yaml`. -/
  | policy
  /-- `read_json`. -/
  | file (name : String)
  | writeStatus (jobId state reason : String)
  | writeK8sResult (key image : String) (ok : Bool) (reason : String)
  | cosign (args : List String)
  | listAgents
  | inspect (id : String)
  | imageInspect (ref : String)
  | pull (ref : String)
  | create (name : String) (body : Dict)
  | start (id : String)
  | stop (id : String) (timeout : ℤ)
  | rename (id name : String)
  | remove (id : String)
  deriving DecidableEq

/-- A JSON value, an error with its text, the exit of a process with the last line of its output, or
an exception that nothing catches, the end of the updater included. -/
inductive Answer
  | json (value : Json)
  | error (text : String)
  | exit (code : ℤ) (tail : String)
  | lost
  deriving DecidableEq

inductive Raised
  | refused (reason : String)
  | docker (reason : String)
  | lost

abbrev Act := Dialogue Question Answer Raised

def refuse {α : Type} (reason : String) : Act α := .raise (.refused reason)

def lost {α : Type} : Act α := .raise .lost

/-- Writing a file. -/
def tell (q : Question) : Act Unit := .ask q fun answer =>
  match answer with
  | .json _ => .pure ()
  | _ => lost

def readJson (name : String) : Act (Option Dict) := .ask (.file name) fun answer =>
  match answer with
  | .json (.obj doc) => .pure (some doc)
  | .json _ | .error _ => .pure none
  | _ => lost

/-- `DockerAPI._call`. -/
def docker (q : Question) : Act Json := .ask q fun answer =>
  match answer with
  | .json value => .pure value
  | .error text => .raise (.docker text)
  | _ => lost

def writeStatus (jobId state reason : String) : Act Unit := tell (.writeStatus jobId state reason)

/-- `try: … except (DockerError, Refused) as exc: …`. -/
def attempt {α : Type} (x : Act α) : Act (Except String α) :=
  Dialogue.handle (do return .ok (← x)) fun raised =>
    match raised with
    | .refused reason | .docker reason => .pure (.error reason)
    | .lost => lost

/-! ### Values of unknown shape -/

/-- `d.get(key)`. -/
def found (d : Dict) (key : String) : Json := (d.get? key).getD .null

/-- `value.get(key)`. -/
def get (value : Json) (key : String) : Act Json :=
  match value with
  | .obj items => .pure (found items key)
  | _ => lost

/-- `value.get(key, default)`. -/
def getOr (value : Json) (key : String) (default : Json) : Act Json :=
  match value with
  | .obj items => .pure ((Dict.get? items key).getD default)
  | _ => lost

/-- `value[key]`. -/
def item (value : Json) (key : String) : Act Json :=
  match value with
  | .obj items =>
    match Dict.get? items key with
    | some present => .pure present
    | none => lost
  | _ => lost

def orEmpty (value : Json) : Json := orElse value (.obj [])

/-- `str(value or "")`. -/
def orText (value : Json) : String := (orElse value (.str "")).text

/-- A value that must be a text. -/
def text (value : Json) : Act String :=
  match value with
  | .str s => .pure s
  | _ => lost

def dict (value : Json) : Act Dict :=
  match value with
  | .obj items => .pure items
  | _ => lost

/-- `for x in value`. -/
def elements (value : Json) : Act (List Json) :=
  match value with
  | .arr items => .pure items
  | .obj items => .pure (items.map fun item => .str item.1)
  | .str s => .pure (s.toList.map fun c => .str (String.singleton c))
  | _ => lost

/-- `needle in value`. -/
def isIn (needle : String) (value : Json) : Act Bool :=
  match value with
  | .arr items => .pure (items.any fun item => item.equal (.str needle))
  | .obj items => .pure (items.any fun item => item.1 = needle)
  | .str s => .pure (Python.containsText s needle)
  | _ => lost

/-- `value[:12]`. -/
def slice12 (value : Json) : Act Json :=
  match value with
  | .arr items => .pure (.arr (items.take 12))
  | .str s => .pure (.str (String.ofList (s.toList.take 12)))
  | _ => lost

/-- Whether a set may hold it. -/
def isHashable : Json → Bool
  | .arr _ | .obj _ => false
  | _ => true

/-- `d.pop(key, None)`. -/
def pop (d : Dict) (key : String) : Dict := d.filter fun item => item.1 ≠ key

/-- `name.lstrip("/")`. -/
def lstripSlash (name : String) : String := String.ofList (name.toList.dropWhile (· = '/'))

/-! ### The policy -/

inductive Verify
  | keyless (identity issuer : String)
  | publicKey (path : String)
  deriving DecidableEq

structure Upgrades where
  repository : String
  verify : Verify
  readyTimeoutS : ℤ
  allowDowngrade : Bool

def loadVerify (verify : Dict) : Except String Verify :=
  match verify.get? "keyless", verify.get? "public_key" with
  | some keyless, _ =>
    let fields : Dict := match keyless with
      | .obj fields => fields
      | _ => []
    let identity := orText (found fields "identity")
    let issuer := orText (found fields "issuer")
    if identity = "" ∨ issuer = "" then
      .error "policy.yaml `upgrades.verify.keyless` needs identity and issuer"
    else .ok (.keyless identity issuer)
  | none, some key => .ok (.publicKey key.text)
  | none, none => .error "policy.yaml `upgrades.verify` names no verification"

def loadTimeout : Option Json → Except String ℤ
  | none => .ok 480
  | some (.int timeout) =>
    if 60 ≤ timeout ∧ timeout ≤ 540 then .ok timeout
    else .error "policy.yaml `upgrades.ready_timeout_s` is out of range"
  | some _ => .error "policy.yaml `upgrades.ready_timeout_s` is out of range"

def malformedUpgrades : String := "policy.yaml `upgrades:` is malformed; the agent refuses it too"

/-- A mapping at the top of the document. -/
def block (doc : Json) (key : String) : Option Dict :=
  match doc with
  | .obj items =>
    match Dict.get? items key with
    | some (.obj value) => some value
    | _ => none
  | _ => none

/-- `load_upgrades` of the document; `none` for `{}`. -/
def loadUpgrades (doc : Json) : Except String (Option Upgrades) :=
  match block doc "upgrades" with
  | none => .ok none
  | some value =>
    if value.get? "enabled" ≠ some (.bool true) then .ok none
    else
      let repository := strip (orText (found value "repository"))
      match value.get? "verify" with
      | some (.obj verify) =>
        if Rollouts.isRepository repository ∧ verify.length = 1 then do
          let verify ← loadVerify verify
          let readyTimeoutS ← loadTimeout (value.get? "ready_timeout_s")
          return some {
            repository, verify, readyTimeoutS
            allowDowngrade := value.get? "allow_downgrade" = some (.bool true) }
        else .error malformedUpgrades
      | _ => .error malformedUpgrades

/-- Reading `policy.yaml` for one of its blocks. -/
def readPolicy {α : Type} (load : Json → Except String α) : Act (Except String α) :=
  .ask .policy fun answer =>
    match answer with
    | .json doc => .pure (load (orEmpty doc))
    | .error text => .pure (.error ("cannot read policy.yaml: " ++ text))
    | _ => lost

/-! ### Signatures -/

/-- `COSIGN`, `COSIGN_EXTRA`, `STOP_TIMEOUT_S` and the hash of `k8s_verify_key`. -/
structure Settings where
  cosign : String
  cosignExtra : List String
  stopTimeoutS : ℤ
  k8sVerifyKey : String → Verify → String

def cosignArgs (settings : Settings) (verify : Verify) (ref : String) : List String :=
  [settings.cosign, "verify"] ++
    (match verify with
    | .keyless identity issuer =>
      ["--certificate-identity-regexp", identity, "--certificate-oidc-issuer", issuer]
    | .publicKey path => ["--key", path]) ++ settings.cosignExtra ++ [ref]

def verifySignature (settings : Settings) (verify : Verify) (ref : String) : Act Unit :=
  .ask (.cosign (cosignArgs settings verify ref)) fun answer =>
    match answer with
    | .exit code tail =>
      if code = 0 then .pure ()
      else refuse ("the image signature did not verify: " ++ String.ofList (tail.toList.take 300))
    | .error text => refuse ("could not run cosign: " ++ text)
    | _ => lost

/-! ### Docker, through an allowlist -/

def roleLabel : String := "dashboard-agent.role"

def versionLabel : String := "dashboard-agent.version"

/-- The ends of `ref.partition("@")`. -/
def partitionAt (ref : String) : String × String :=
  (String.ofList (ref.toList.takeWhile (· ≠ '@')),
    String.ofList ((ref.toList.dropWhile (· ≠ '@')).drop 1))

/-- `_image_ref`. Elaboration is not to run the digest's pattern on a variable. -/
@[irreducible]
def imageRef (repository ref : String) : Act Unit :=
  if (partitionAt ref).1 = repository ∧ isDigest (partitionAt ref).2 then .pure ()
  else refuse ("refusing image " ++ ref ++ ": only " ++ repository ++ "@sha256:… is allowed")

/-- `_agent`. -/
def agent (id : Json) : Act Json := do
  let id ← text id
  let info ← docker (.inspect id)
  let labels ← get (← getOr info "Config" (.obj [])) "Labels"
  let role ← get (orEmpty labels) roleLabel
  if role = .str "agent" then return info
  else refuse ("container " ++ String.ofList (id.toList.take 12) ++ " is not labelled " ++ roleLabel ++
    "=agent")

def imageInspect (repository ref : String) : Act Json := do
  imageRef repository ref
  docker (.imageInspect ref)

def imageInspectId (imageId : Json) : Act Json := do
  let imageId ← text imageId
  if isDigest imageId then docker (.imageInspect imageId)
  else refuse ("refusing to inspect image " ++ reprText imageId)

def pull (repository ref : String) : Act Unit := do
  imageRef repository ref
  let _ ← docker (.pull ref)

def create (repository name : String) (body : Dict) : Act Json := do
  let role ← get (orEmpty (found body "Labels")) roleLabel
  if role = .str "agent" then
    imageRef repository (← text (orElse (found body "Image") (.str "")))
    let answer ← docker (.create name body)
    item answer "Id"
  else refuse ("refusing to create a container not labelled " ++ roleLabel ++ "=agent")

def start (id : Json) : Act Unit := do
  let _ ← agent id
  let _ ← docker (.start (← text id))

def stop (id : Json) (timeout : ℤ) : Act Unit := do
  let _ ← agent id
  let _ ← docker (.stop (← text id) timeout)

def rename (id : Json) (name : String) : Act Unit := do
  let _ ← agent id
  let _ ← docker (.rename (← text id) name)

def remove (id : Json) : Act Unit := do
  let _ ← agent id
  let _ ← docker (.remove (← text id))

/-! ### The successor's settings -/

def endpoints : Dict → Act Dict
  | [] => pure []
  | (name, ep) :: rest => do
    let fields ← dict (orEmpty ep)
    let kept := fields.filter fun item => item.1 ∈ ["Aliases", "IPAMConfig", "Links", "DriverOpts"]
    return (name, .obj kept) :: (← endpoints rest)

/-- The elements of `value or []`, for a set or a test against one. -/
def hashables (value : Json) : Act (List Json) := do
  let items ← elements (orElse value (.arr []))
  if items.all isHashable then return items else lost

def successorBody (old oldImage : Json) (newRef : String) : Act Dict := do
  let config := orEmpty (← get old "Config")
  let cfg ← dict config
  let imageCfg ← dict (orEmpty (← get (orEmpty oldImage) "Config"))
  let cfg := ["Cmd", "Entrypoint", "WorkingDir"].foldl (fun cfg key =>
    if (found cfg key).equal (found imageCfg key) then pop cfg key else cfg) cfg
  let imageEnv ← hashables (found imageCfg "Env")
  let env ← hashables (found cfg "Env")
  let cfg := cfg.set "Env" (.arr (env.filter fun e => !imageEnv.any e.equal))
  let hostname ← slice12 (orElse (← get old "Id") (.str ""))
  let cfg := if (found cfg "Hostname").equal hostname then pop cfg "Hostname" else cfg
  let cfg := pop (pop cfg "Image") "Labels"
  let labels ← dict (orEmpty (← get config "Labels"))
  let networks ← get (orEmpty (← get old "NetworkSettings")) "Networks"
  let endpoints ← endpoints (← dict (orEmpty networks))
  let hostConfig ← get old "HostConfig"
  return Dict.update cfg [("Image", .str newRef), ("Labels", .obj (pop labels versionLabel)),
    ("HostConfig", orEmpty hostConfig),
    ("NetworkingConfig", .obj [("EndpointsConfig", .obj endpoints)])]

/-! ### One request -/

def anyPrevious : List Json → Act Bool
  | [] => pure false
  | n :: names => do
    if "-previous".toList <:+ (← text n).toList then return true else anyPrevious names

def withoutPrevious : List Json → Act (List Json)
  | [] => pure []
  | c :: containers => do
    let names ← elements (orElse (← get c "Names") (.arr []))
    let previous ← anyPrevious names
    let rest ← withoutPrevious containers
    return if previous then rest else c :: rest

def theAgent : Act Json := do
  let running ← withoutPrevious (← elements (← docker .listAgents))
  match running with
  | [c] => agent (← item c "Id")
  | _ => refuse ("expected one container labelled " ++ roleLabel ++ "=agent, found " ++
      toString running.length)

/-- What `_wait_ready` sees wrong with the container. -/
def watched (watch : Json) : Act String := do
  if watch.truthy then
    let info ← agent watch
    let state := orEmpty (← get info "State")
    let running ← get state "Running"
    let status ← get state "Status"
    let code ← get state "ExitCode"
    if !running.truthy ∧ (status = .str "exited" ∨ status = .str "dead") then
      return "the new agent exited (code " ++ code.text ++ ")"
    else
      let restarting ← get state "Restarting"
      let count := orElse (← get info "RestartCount") (.int 0)
      let failed := "the new agent exited (code " ++ code.text ++ ") and was restarting"
      if restarting.truthy then return failed
      else
        match count.int? with
        | some n => return if 0 < n then failed else ""
        | none => lost
  else return ""

/-- `_wait_ready`: `polls` is how often it looks before its deadline has passed. -/
def waitReady (jobId version : String) (timeout : ℤ) (watch : Json) : ℕ → Act String
  | 0 => pure ("the new agent did not report ready within " ++ toString timeout ++ "s")
  | polls + 1 => do
    let ready := (← readJson "ready").getD []
    if found ready "job_id" = .str jobId then
      if found ready "version" = .str version then return ""
      else
        return "the new agent came up as " ++ (found ready "version").text ++ ", not " ++ version
    else
      let why ← watched watch
      if why = "" then waitReady jobId version timeout watch polls else return why

def restore (oldId : Json) (name : String) (newId : Json) : Act Unit := do
  if newId.truthy then
    Dialogue.handle (stop newId 10) fun raised =>
      match raised with
      | .docker _ => .pure ()
      | raised => .raise raised
    remove newId
  rename oldId name
  start oldId

def removePrevious (name : String) : List Json → Act Unit
  | [] => pure ()
  | c :: containers => do
    let names ← get c "Names"
    if ← isIn ("/" ++ name ++ "-previous") (orElse names (.arr [])) then
      remove (← item c "Id")
    removePrevious name containers

/-- A pass's number of looks at `ready`, and whether the next check of the Kubernetes image is
still to be waited for. -/
structure Clock where
  polls : ℕ
  k8sWaits : Bool

section
variable (settings : Settings) (clock : Clock) (upgrades : Upgrades) (jobId : String)

/-- `_upgrade` from the swap on. -/
def swap (ref version : String) (old : Json) : Act String := do
  let oldId ← item old "Id"
  let name := lstripSlash (← text (← item old "Name"))
  let image ← get old "Image"
  let oldImage ← attempt (imageInspectId (orElse image (.str "")))
  let body ← successorBody old (oldImage.toOption.getD (.obj [])) ref
  writeStatus jobId "swapping" ""
  stop oldId settings.stopTimeoutS
  removePrevious name (← elements (← docker .listAgents))
  rename oldId (name ++ "-previous")
  let started ← attempt do
    let newId ← create upgrades.repository name body
    start newId
    return newId
  match started with
  | .error reason =>
    restore oldId name .null
    writeStatus jobId "rolled_back" ("the new container would not start: " ++ reason)
    return "rolled_back"
  | .ok newId =>
    writeStatus jobId "waiting_ready" ""
    let why ← waitReady jobId version upgrades.readyTimeoutS newId clock.polls
    if why = "" then
      remove oldId
      writeStatus jobId "done" ""
      return "done"
    else
      restore oldId name newId
      writeStatus jobId "rolled_back" why
      return "rolled_back"

def upgrade (ref version : String) : Act String := do
  writeStatus jobId "verifying" ""
  verifySignature settings upgrades.verify ref
  writeStatus jobId "pulling" ""
  pull upgrades.repository ref
  let image ← imageInspect upgrades.repository ref
  let labels ← get (orEmpty (← get image "Config")) "Labels"
  let labelled ← get (orEmpty labels) versionLabel
  if labelled = .str version then swap settings clock upgrades jobId ref version (← theAgent)
  else refuse (ref ++ " is labelled version " ++ labelled.reprText ++ ", not " ++ version)

def restart (version : String) : Act String := do
  let agent ← theAgent
  writeStatus jobId "swapping" ""
  let id ← item agent "Id"
  stop id settings.stopTimeoutS
  start id
  writeStatus jobId "waiting_ready" ""
  let why ← waitReady jobId version upgrades.readyTimeoutS id clock.polls
  if why = "" then
    writeStatus jobId "done" ""
    return "done"
  else
    writeStatus jobId "failed" why
    return "failed"

/-- The body of `handle`. -/
def carryOut (request : Dict) : Act String :=
  let op := found request "op"
  let digest := orText (found request "digest")
  let version := orText (found request "version")
  if op = .str "restart" then restart settings clock upgrades jobId version
  else if op ≠ .str "upgrade" then refuse ("unknown operation " ++ op.reprText)
  else if found request "repository" = .str upgrades.repository ∧ isDigest digest ∧ isVersion version
  then upgrade settings clock upgrades jobId (upgrades.repository ++ "@" ++ digest) version
  else refuse "the request does not match policy.yaml (repository, digest or version)"

end

def handle (settings : Settings) (clock : Clock) (request : Dict) (upgrades : Option Upgrades) :
    Act String :=
  let jobId := orText (found request "job_id")
  let body := match upgrades with
    | none => refuse "policy.yaml does not enable `upgrades:`"
    | some upgrades => carryOut settings clock upgrades jobId request
  Dialogue.handle body fun raised =>
    match raised with
    | .refused reason => do
      writeStatus jobId "failed" reason
      return "failed"
    | .docker reason => do
      writeStatus jobId "failed" ("Docker refused: " ++ reason)
      return "failed"
    | .lost => lost

/-! ### The Kubernetes image -/

structure K8s where
  image : String
  verify : Verify
  key : String

/-- `_verify_block`. -/
def verifyBlock (verify : Json) (place : String) : Except String Verify :=
  match verify with
  | .obj [("keyless", keyless)] =>
    let fields : Dict := match keyless with
      | .obj fields => fields
      | _ => []
    let identity := strip (orText (found fields "identity"))
    let issuer := strip (orText (found fields "issuer"))
    if identity = "" ∨ issuer = "" then
      .error ("policy.yaml `" ++ place ++ ".keyless` needs identity and issuer")
    else .ok (.keyless identity issuer)
  | .obj [("public_key", key)] =>
    let key := strip (orText key)
    if "/".toList <+: key.toList then .ok (.publicKey key)
    else .error ("policy.yaml `" ++ place ++ ".public_key` must be an absolute path")
  | .obj [_] => .error ("policy.yaml `" ++ place ++ "` names no verification")
  | _ => .error ("policy.yaml `" ++ place ++ "` is malformed; the agent refuses it too")

/-- `_K8S_IMAGE_RE`. -/
def isK8sImage (image : String) : Bool :=
  let name := (partitionAt image).1
  name ≠ "" && name.toList.all "abcdefghijklmnopqrstuvwxyz0123456789./_-".toList.contains &&
    isDigest (partitionAt image).2

/-- `load_k8s` of the document; `none` for `{}`. -/
def loadK8s (settings : Settings) (doc : Json) : Except String (Option K8s) :=
  match block doc "k8s" with
  | none => .ok none
  | some value =>
    if ¬(found value "enabled").truthy ∨ found value "verify" = .null then .ok none
    else
      let image := orText (found value "image")
      if isK8sImage image then do
        let verify ← verifyBlock (found value "verify") "k8s.verify"
        return some { image, verify, key := settings.k8sVerifyKey image verify }
      else .error "policy.yaml `k8s.image` is not pinned by digest"

def checkK8sImage (settings : Settings) (clock : Clock) : Act (Option Bool) := do
  match ← readPolicy (loadK8s settings) with
  | .error _ | .ok none => return none
  | .ok (some k8s) =>
    let done := (← readJson "k8s-image.json").getD []
    if found done "key" = .str k8s.key ∧ (found done "ok" = .bool true ∨ clock.k8sWaits) then
      return none
    else
      match ← attempt (verifySignature settings k8s.verify k8s.image) with
      | .error reason =>
        tell (.writeK8sResult k8s.key k8s.image false reason)
        return some false
      | .ok () =>
        tell (.writeK8sResult k8s.key k8s.image true "")
        return some true

/-! ### Passes -/

def tick (settings : Settings) (clock : Clock) : Act (Option String) := do
  tell .alive
  let _ ← checkK8sImage settings clock
  match ← readJson "request.json" with
  | none => return none
  | some request =>
    let jobId := found request "job_id"
    if ¬jobId.truthy then return none
    else
      let status := (← readJson "status.json").getD []
      if (found status "job_id").equal jobId then return none
      else
        match ← readPolicy loadUpgrades with
        | .error reason =>
          writeStatus jobId.text "failed" reason
          return some "failed"
        | .ok upgrades => return some (← handle settings clock request upgrades)

/-- What the world answers one pass. -/
structure Pass where
  clock : Clock
  answers : List Answer

/-- The questions of a sequence of passes, with their answers. -/
def run (settings : Settings) (passes : List Pass) : List (Question × Answer) :=
  passes.flatMap fun pass => (tick settings pass.clock).log pass.answers

end Upgrading
