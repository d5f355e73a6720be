import Mathlib.Data.Prod.Lex
import Mathlib.Data.String.Basic
import VmDashboard.Machine.Tiling
import VmDashboard.Python.Base64
import VmDashboard.Python.DateTime
import VmDashboard.Storage.StateSwap

/-!
# Uploads in parts

`begin_upload`, `stage_part` and `commit_upload` of `services/storage_chunked.py` over the calls of
the object stores' clients. A session is what its handle decrypts to.
-/

namespace Storage.Chunked
open Storage (Backend Bytes)

/-! ### Sizing -/

@[irreducible] def partBytes : ℕ := 8 * 1024 * 1024

def maxChunkedUploadBytes : ℕ := 5 * 1024 * 1024 * 1024

/-- `math.ceil` of a quotient by a power of two, which a float holds exactly. -/
def partCount (totalBytes : ℕ) : ℕ := max 1 (totalBytes ⌈/⌉ partBytes)

def expectedPartBytes (totalBytes : ℕ) (partNumber : ℤ) : ℕ :=
  let parts := partCount totalBytes
  if partNumber < parts then partBytes else totalBytes - (parts - 1) * partBytes

/-! ### The clients of the object stores -/

inductive Failure
  | storage (text : String)
  /-- `UploadTooLarge`, whose text gives the size. -/
  | tooLarge (name : String) (totalBytes : ℕ)
  /-- What a client raises. -/
  | client
  deriving DecidableEq

/-- The multipart calls of S3 and of OCI. An upload that is open has a map of its parts, with the tag
and the length of each. -/
structure Multipart (σ : Type) where
  createMultipartUpload : σ → String → Option (σ × String)
  uploadPart : σ → String → String → ℤ → Bytes → σ × Option String
  completeMultipartUpload : σ → String → String → List (ℤ × String) → Option σ
  listParts : σ → String → String → Option (ℤ → Option (String × ℕ))
  head : σ → String → Option ℕ

/-- The block calls of Azure, with the lengths of the blocks of a key. -/
structure Blocks (σ : Type) where
  stageBlock : σ → String → String → Bytes → σ × Bool
  commitBlockList : σ → String → List String → Option σ
  committed : σ → String → String → Option ℕ
  uncommitted : σ → String → String → Option ℕ
  head : σ → String → Option ℕ

/-- The resumable sessions of GCS: a `PUT` answers with a status and a text. A session has the key and
the size it was opened with, and the bytes that are persisted. A blob may come without a size. -/
structure Resumable (σ : Type) where
  createResumableUploadSession : σ → String → ℕ → Option (σ × String)
  put : σ → String → Bytes → ℕ → ℕ → σ × ℕ × String
  getBlob : σ → String → Option (Option ℕ)
  target : σ → String → Option (String × ℕ)
  persisted : σ → String → ℕ

structure Clients (σ : Type) where
  s3 : Multipart σ
  azure : Blocks σ
  gcs : Resumable σ
  oci : Multipart σ

/-- `sorted` of pairs. -/
def sortedParts (parts : List (ℤ × String)) : List (ℤ × String) :=
  parts.mergeSort fun p q => toLex p ≤ toLex q

section Operations
variable {σ : Type}

def Multipart.begin (client : Multipart σ) (store : σ) (key : String) :
    Except Failure (σ × String) :=
  match client.createMultipartUpload store key with
  | some (store, uploadId) => .ok (store, uploadId)
  | none => .error .client

def Multipart.stage (client : Multipart σ) (store : σ) (key ref : String) (part : ℤ) (data : Bytes) :
    σ × Except Failure String :=
  match client.uploadPart store key ref part data with
  | (store, some etag) => (store, .ok etag)
  | (store, none) => (store, .error .client)

def Multipart.commit (client : Multipart σ) (store : σ) (key ref : String)
    (parts : List (ℤ × String)) : Except Failure σ :=
  match client.completeMultipartUpload store key ref (sortedParts parts) with
  | some store => .ok store
  | none => .error .client

/-- `b64encode(f"{part:08d}")`. -/
def azureBlockId (part : ℤ) : String :=
  String.ofList (Python.b64encode
    (Python.utf8Encode (String.ofList (Python.padded 8 part.toNat))))

def Blocks.stage (client : Blocks σ) (store : σ) (key : String) (part : ℤ) (data : Bytes) :
    σ × Except Failure String :=
  match client.stageBlock store key (azureBlockId part) data with
  | (store, true) => (store, .ok (azureBlockId part))
  | (store, false) => (store, .error .client)

/- The ids are computed again; those of the request are ignored. -/
def Blocks.commit (client : Blocks σ) (store : σ) (key : String) (parts : List (ℤ × String)) :
    Except Failure σ :=
  match client.commitBlockList store key ((sortedParts parts).map fun p => azureBlockId p.1) with
  | some store => .ok store
  | none => .error .client

def Resumable.begin (client : Resumable σ) (store : σ) (key : String) (total : ℕ) :
    Except Failure (σ × String) :=
  match client.createResumableUploadSession store key total with
  | some (store, uri) => .ok (store, uri)
  | none => .error .client

def Resumable.stage (client : Resumable σ) (store : σ) (ref : String) (part : ℤ) (data : Bytes)
    (offset total : ℕ) : σ × Except Failure String :=
  let (store, status, text) := client.put store ref data offset total
  if status ∈ [200, 201, 308] then (store, .ok "")
  else
    let answer := String.ofList (text.toList.take 200)
    (store, .error (.storage s!"GCS refused part {part} ({status}): {answer}"))

def Resumable.commit (client : Resumable σ) (store : σ) (key : String) (total : ℕ) :
    Except Failure σ :=
  match client.getBlob store key with
  | none =>
    .error (.storage ("GCS did not finalise the object — the last part never arrived. " ++
      "Start the upload again."))
  | some none => .ok store
  | some (some size) =>
    if size ≠ total then
      .error (.storage (s!"GCS finalised {size} bytes of an expected {total}. " ++
        "Start the upload again."))
    else .ok store

/-! ### Sessions -/

structure Session where
  backend : Backend
  name : String
  key : String
  ref : String
  total : ℕ
  parts : ℕ
  user : String
  deriving DecidableEq

/-- What a token decrypts to. -/
inductive Handle
  | unreadable
  | other
  | session (session : Session)

def decodeHandle (handle : Handle) (username : String) : Except Failure Session :=
  match handle with
  | .unreadable =>
    .error (.storage ("This upload session is no longer valid — it expired or was not issued by " ++
      "this dashboard. Start the upload again."))
  | .other => .error (.storage "This upload session is not a chunked-upload handle.")
  | .session session =>
    if session.user ≠ "" ∧ username ≠ "" ∧ session.user ≠ username then
      .error (.storage "This upload session belongs to a different user.")
    else .ok session

/-! ### The operations -/

def assetExtensions : List String :=
  [".yml", ".yaml", ".sh", ".ps1", ".rpm", ".deb", ".exe", ".msi"]

def checkUpload (name : String) : Except Failure Unit :=
  if assetExtensions.any fun ext => ext.toList <:+ name.toList then .ok ()
  else
    .error (.storage (s!"Unsupported file type for '{name}'. Allowed extensions: " ++
      ".deb, .exe, .msi, .ps1, .rpm, .sh, .yaml, .yml"))

def backendName : Backend → String
  | .s3 => "s3"
  | .azureBlob => "azure_blob"
  | .gcs => "gcs"
  | .ociObjectStorage => "oci_object_storage"
  | .localPath => "local"
  | .agentLocal => "agent_local"

def supportsChunkedUpload : Backend → Bool
  | .localPath | .agentLocal => false
  | _ => true

def chunkedUploadReason : Backend → String
  | .agentLocal => "a share reached through an agent moves files inside a signed job " ++
      "envelope, and chunking does not change that ceiling — use a cloud backend for anything larger"
  | .localPath => "a filesystem path has no part-staging protocol, and this backend is already " ++
      "limited to the container's ephemeral disk — use a cloud backend for anything larger"
  | _ => "parts are staged straight into the object store, so neither the browser nor the " ++
      "dashboard holds more than one part"

def opBegin (clients : Clients σ) (backend : Backend) (store : σ) (key : String) (total : ℕ) :
    Except Failure (σ × String) :=
  match backend with
  | .s3 => clients.s3.begin store key
  | .azureBlob => .ok (store, "")
  | .gcs => clients.gcs.begin store key total
  | .ociObjectStorage => clients.oci.begin store key
  | _ => .error .client

def opStage (clients : Clients σ) (session : Session) (store : σ) (part : ℤ) (data : Bytes)
    (offset : ℕ) : σ × Except Failure String :=
  match session.backend with
  | .s3 => clients.s3.stage store session.key session.ref part data
  | .azureBlob => clients.azure.stage store session.key part data
  | .gcs => clients.gcs.stage store session.ref part data offset session.total
  | .ociObjectStorage => clients.oci.stage store session.key session.ref part data
  | _ => (store, .error .client)

def opCommit (clients : Clients σ) (session : Session) (store : σ) (parts : List (ℤ × String)) :
    Except Failure σ :=
  match session.backend with
  | .s3 => clients.s3.commit store session.key session.ref parts
  | .azureBlob => clients.azure.commit store session.key parts
  | .gcs => clients.gcs.commit store session.key session.total
  | .ociObjectStorage => clients.oci.commit store session.key session.ref parts
  | _ => .error .client

/-- `begin_upload` on a configured backend, with the folder of its assets. -/
def beginUpload (clients : Clients σ) (backend : Backend) (store : σ) (folder name : String)
    (totalBytes : ℤ) (username : String) : Except Failure (σ × Session) := do
  if ¬supportsChunkedUpload backend then
    throw (.storage (s!"Backend '{backendName backend}' cannot accept a chunked upload: " ++
      s!"{chunkedUploadReason backend}."))
  checkUpload name
  if totalBytes ≤ 0 then
    throw (.storage "A chunked upload needs the file's total size up front.")
  if maxChunkedUploadBytes < totalBytes then throw (.tooLarge name totalBytes.toNat)
  let key := folder ++ "/" ++ name
  let total := totalBytes.toNat
  let (store, ref) ← opBegin clients backend store key total
  return (store, ⟨backend, name, key, ref, total, partCount total, username⟩)

structure Receipt where
  part : ℤ
  ref : String
  bytes : ℕ
  deriving DecidableEq

/-- The offset of a part that the layout has. -/
def checkPart (session : Session) (partNumber : ℤ) (data : Bytes) : Except Failure ℕ :=
  if ¬(1 ≤ partNumber ∧ partNumber ≤ session.parts) then
    .error (.storage s!"Part {partNumber} is outside this upload's 1..{session.parts}.")
  else
    let expected := expectedPartBytes session.total partNumber
    if data.length ≠ expected then
      .error (.storage (s!"Part {partNumber} is {data.length} bytes, expected {expected}. " ++
        s!"The part size is fixed by the server at {partBytes} bytes; slice the file to match."))
    else .ok ((partNumber - 1).toNat * partBytes)

def stagePart (clients : Clients σ) (store : σ) (handle : Handle) (partNumber : ℤ) (data : Bytes)
    (username : String) : σ × Except Failure Receipt :=
  match decodeHandle handle username with
  | .error e => (store, .error e)
  | .ok session =>
    match checkPart session partNumber data with
    | .error e => (store, .error e)
    | .ok offset =>
      match opStage clients session store partNumber data offset with
      | (store, .error e) => (store, .error e)
      | (store, .ok ref) => (store, .ok ⟨partNumber, ref, data.length⟩)

/-- The loop over the parts of a commit. The numbers that were seen are those of the pairs. -/
def collectPairs : List (ℤ × String) → List (ℤ × String) → Except Failure (List (ℤ × String))
  | pairs, [] => .ok pairs
  | pairs, (n, ref) :: parts =>
    if n ∈ pairs.map Prod.fst then .error (.storage s!"Part {n} was listed twice.")
    else collectPairs (pairs ++ [(n, ref)]) parts

/-- `range(1, expected + 1)`. -/
def partNumbers (expected : ℕ) : List ℤ := (List.range expected).map fun (i : ℕ) => (i : ℤ) + 1

def checkParts (expected : ℕ) (parts : List (ℤ × String)) :
    Except Failure (List (ℤ × String)) := do
  let pairs ← collectPairs [] parts
  match (partNumbers expected).filter (· ∉ pairs.map Prod.fst) with
  | first :: missing =>
    throw (.storage (s!"{missing.length + 1} of {expected} parts never arrived (first missing: " ++
      s!"{first}). Nothing was written — start the upload again."))
  | [] =>
    if pairs.length ≠ expected then
      throw (.storage s!"Got {pairs.length} parts for an upload of {expected}.")
    return pairs

structure Summary where
  filename : String
  backend : Backend
  size : ℕ
  parts : ℕ
  deriving DecidableEq

def commitUpload (clients : Clients σ) (store : σ) (handle : Handle) (parts : List (ℤ × String))
    (username : String) : Except Failure (σ × Summary) := do
  let session ← decodeHandle handle username
  let pairs ← checkParts session.parts parts
  let store ← opCommit clients session store pairs
  return (store, ⟨session.name, session.backend, session.total, session.parts⟩)

end Operations

end Storage.Chunked
