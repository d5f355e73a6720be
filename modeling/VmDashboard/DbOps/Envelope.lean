import Mathlib.Data.List.Dedup
import VmDashboard.DbOps.Destination
import VmDashboard.Python.Replace

/-!
# What a credential operation answers (`_run` and `_envelope` of `functions/fnworkloads/ps_dbops.py`)

What the drivers raise is classified, and every detail is scrubbed of the credentials of its request
before it is sent.
-/

namespace DbOps
open Machine (bind_eq_ok raiseIf_eq_ok performed_eq_ok)
open Python (Dict Json lower replace Apart)

/-! ### Failures -/

/-- An exception: `str` of it, the name of its class, `_error_number` of it. -/
structure Failure where
  text : String
  className : String
  number : ℤ
  isOSError : Bool

def errorNumbers : List (ℤ × ℕ × String) :=
  [(18456, 401, "DB_AUTH_FAILED"), (18452, 401, "DB_AUTH_FAILED"), (1045, 401, "DB_AUTH_FAILED"),
    (15007, 404, "PRINCIPAL_NOT_FOUND"), (1396, 404, "PRINCIPAL_NOT_FOUND"),
    (15247, 403, "DB_PERMISSION_DENIED"), (297, 403, "DB_PERMISSION_DENIED"),
    (1227, 403, "DB_PERMISSION_DENIED"), (1142, 403, "DB_PERMISSION_DENIED"),
    (15116, 409, "POLICY_REJECTED"), (15118, 409, "POLICY_REJECTED"), (1819, 409, "POLICY_REJECTED")]

def ambiguousNumbers : List ℤ := [15151, 15150]

def timeoutMarkers : List String := ["timeout", "timed out", "timeoutexpired"]

def unreachableMarkers : List String :=
  ["getaddrinfo", "name or service not known", "no route to host", "connection refused",
    "network is unreachable", "unreachable", "cannot connect", "could not connect", "connection reset",
    "handshake", "ssl", "tls", "broken pipe", "econnrefused"]

/-- `part in text`. -/
def Within (part text : String) : Prop := part.toList <:+: text.toList

instance (part text : String) : Decidable (Within part text) :=
  inferInstanceAs (Decidable (_ <:+: _))

/-- The status, the code and the detail. -/
def classify (failure : Failure) : ℕ × String × String :=
  let text := if failure.text = "" then failure.className else failure.text
  match errorNumbers.lookup failure.number with
  | some (status, code) => (status, code, text)
  | none =>
    if failure.number ∈ ambiguousNumbers then
      (403, "DB_PERMISSION_DENIED", text ++
        " — SQL Server reports 'does not exist or you do not have " ++
        "permission' as one error and does not distinguish them, so this may also " ++
        "be a missing login. Confirm the grant first: ALTER SERVER ROLE " ++
        "CustomerDbRootRole ADD MEMBER [<functional account>]")
    else if timeoutMarkers.any fun marker => Within marker (lower text) then (504, "DB_TIMEOUT", text)
    else if failure.isOSError ∨ unreachableMarkers.any fun marker => Within marker (lower text) then
      (502, "DB_UNREACHABLE", text)
    else (500, "DB_ERROR", text)

/-! ### The response -/

/-- Python's own order of a set of texts. -/
structure Listing where
  list : List String → List String
  mem_list : ∀ {texts text}, text ∈ list texts ↔ text ∈ texts
  nodup_list : ∀ texts, (list texts).Nodup

def marker : List Char := "***".toList

def scrub (listing : Listing) (secrets : List String) (detail : String) : String :=
  let longestFirst := (listing.list (secrets.filter (· ≠ ""))).mergeSort fun a b => b.length ≤ a.length
  longestFirst.foldl (fun text secret =>
    if 4 ≤ secret.length then String.ofList (replace secret.toList marker text.toList) else text) detail

structure Response where
  status : ℕ
  contractVersion : ℤ
  requestId : String
  success : Bool
  code : String
  detail : Option String
  extra : Dict

/-- `_envelope`. -/
def envelope (listing : Listing) (secrets : List String) (version : ℤ) (requestId : String)
    (status : ℕ) (code : String) (detail : Option String) (success : Bool) (extra : Dict) :
    Response where
  status
  contractVersion := if version = 1 then version else 1
  requestId
  success
  code
  detail := detail.bind fun detail =>
    let scrubbed := scrub listing secrets detail
    if scrubbed = "" then none else some scrubbed
  extra

/-- `_STATEMENT_KINDS`. -/
def statementKind (op : Op) (engine : Engine) : String :=
  match op with
  | .verify => "CONNECT"
  | .listAccounts => "LIST_LOGINS"
  | .change | .changeSelf => if engine = .sqlserver then "ALTER_LOGIN" else "ALTER_USER"

/-- What `_run` catches. -/
inductive Raised
  | unsupported (message : String)
  | dbOps (message : String)
  | failure (failure : Failure)

/-- `_run`, with what the operation came to: the one field it reports or what it raised. -/
def run (listing : Listing) (execute : Parsed → Except Raised (String × Json)) (parsed : Parsed) :
    Response :=
  let kind := ("statementKind", Json.str (statementKind parsed.op parsed.target.engine))
  let reply := envelope listing parsed.secrets parsed.version parsed.requestId
  match execute parsed with
  | .ok reported => reply 200 "OK" none true [kind, reported]
  | .error (.unsupported message) => reply 422 "UNSUPPORTED_COMBINATION" (some message) false [kind]
  | .error (.dbOps message) => reply 400 "BAD_REQUEST" (some message) false [kind]
  | .error (.failure failure) =>
    let (status, code, detail) := classify failure
    reply status code (some detail) false [kind]

/-- The credentials a request carries. -/
def credentials (payload : Dict) : List String :=
  [fieldText payload ["loginPassword", "login_password"],
    fieldText payload ["newPassword", "new_password"],
    fieldText payload ["currentPassword", "current_password"]]

/-- `_credential_op`. -/
def respond (listing : Listing) (allowlist contextId : String)
    (execute : Parsed → Except Raised (String × Json)) (payload : Dict) : Response :=
  let version := contractVersion payload
  let own := fieldText payload ["requestId", "request_id"]
  let fail := envelope listing (credentials payload) version (if own = "" then contextId else own)
  match parseCredentialOp allowlist payload version with
  | .error (.notImplemented message) =>
    fail 501 "UNSUPPORTED_CONTRACT_VERSION" (some message) false
      [("supported_contract_versions", .arr [.int 1])]
  | .error (.unsupported message) => fail 422 "UNSUPPORTED_COMBINATION" (some message) false []
  | .error (.dbOps message) => fail 400 "BAD_REQUEST" (some message) false []
  | .ok parsed => run listing execute parsed

/-! ### What a scrubbed detail holds -/

/-- The marker cannot stand for a part of the text: no asterisk at its ends, and no three in a row. -/
structure Unmistakable (secret : String) : Prop where
  head : secret.toList.head? ≠ some '*'
  last : secret.toList.getLast? ≠ some '*'
  inside : ¬Within "***" secret

variable {listing : Listing} {secrets : List String} {secret detail : String}

theorem replaced_eq (order : List String) (text : String) :
    (order.foldl (fun text secret =>
      if 4 ≤ secret.length then String.ofList (replace secret.toList marker text.toList) else text)
        text).toList =
      ((order.filter (4 ≤ ·.length)).map String.toList).foldl
        (fun text needle => replace needle marker text) text.toList := by
  induction order generalizing text with
  | nil => rfl
  | cons secret order ih =>
    rw [List.foldl_cons, ih, List.filter_cons]
    by_cases hlength : 4 ≤ secret.length
    · simp [hlength]
    · simp [hlength]

theorem scrub_hides (hmem : secret ∈ secrets) (hlength : 4 ≤ secret.length)
    (hapart : Apart marker secret.toList) : ¬Within secret (scrub listing secrets detail) := by
  have hne : secret ≠ "" := by
    rintro rfl
    exact absurd hlength (by decide)
  have hne' : secret.toList ≠ [] := fun hnil => hne (String.toList_eq_nil_iff.mp hnil)
  have hlisted : secret ∈ (listing.list (secrets.filter (· ≠ ""))).mergeSort
      fun a b => b.length ≤ a.length := by
    rw [List.mem_mergeSort, listing.mem_list, List.mem_filter, decide_eq_true_eq]
    exact ⟨hmem, hne⟩
  unfold Within scrub
  rw [replaced_eq]
  refine Python.not_infix_foldl_replace hne' hapart (List.mem_map_of_mem ?_) detail.toList
  rw [List.mem_filter, decide_eq_true_eq]
  exact ⟨hlisted, hlength⟩

theorem Unmistakable.apart (h : Unmistakable secret) (hne : secret.toList ≠ []) :
    Apart marker secret.toList := by
  have hstar : ∀ c ∈ marker, c = '*' := fun c hc => by simpa [marker] using hc
  constructor
  · rintro ⟨front, back, hmarker⟩
    obtain ⟨c, rest, hsecret⟩ := List.exists_cons_of_ne_nil hne
    have hc : c ∈ marker := by
      rw [← hmarker, hsecret]
      simp
    apply h.head
    rw [hsecret, hstar c hc]
    rfl
  · exact h.inside
  · intro part hsuffix hstart
    cases part with
    | nil => rfl
    | cons c rest =>
      obtain ⟨back, hsecret⟩ := hstart
      have hc : c = '*' := hstar c (hsuffix.subset List.mem_cons_self)
      refine absurd ?_ h.head
      rw [← hsecret, hc]
      rfl
  · intro part hsuffix hstart
    rcases List.eq_nil_or_concat' part with rfl | ⟨rest, c, rfl⟩
    · rfl
    · obtain ⟨front, hsecret⟩ := hsuffix
      have hc : c = '*' := hstar c (hstart.subset (by simp))
      refine absurd ?_ h.last
      rw [← hsecret, hc, ← List.append_assoc, List.getLast?_concat]

/-! ### The details of a response -/

variable {version : ℤ} {requestId code : String} {status : ℕ} {raw : Option String} {success : Bool}
  {extra : Dict}

theorem envelope_hides (hmem : secret ∈ secrets) (hlength : 4 ≤ secret.length)
    (hplain : Unmistakable secret)
    (hdetail : detail ∈
      (envelope listing secrets version requestId status code raw success extra).detail) :
    ¬Within secret detail := by
  have hne : secret.toList ≠ [] := by
    intro hnil
    rw [← String.length_toList, hnil] at hlength
    cases hlength
  obtain ⟨message, -, hscrubbed⟩ := Option.bind_eq_some_iff.mp hdetail
  dsimp only at hscrubbed
  split at hscrubbed
  · cases hscrubbed
  · obtain rfl := Option.some.inj hscrubbed
    exact scrub_hides hmem hlength (hplain.apart hne)

/-- Every envelope that is built for an operation is scrubbed with its credentials. -/
theorem run_hides {execute : Parsed → Except Raised (String × Json)} {parsed : Parsed}
    (hmem : secret ∈ parsed.secrets) (hlength : 4 ≤ secret.length) (hplain : Unmistakable secret)
    (hdetail : detail ∈ (run listing execute parsed).detail) : ¬Within secret detail := by
  unfold run at hdetail
  dsimp only at hdetail
  split at hdetail <;> exact envelope_hides hmem hlength hplain hdetail

/-- The secrets of an operation are the credentials of its request. -/
theorem credentials_parsed {allowlist : String} {payload : Dict} {parsed : Parsed}
    (h : parseCredentialOp allowlist payload version = .ok parsed) (hmem : secret ∈ credentials payload)
    (hne : secret ≠ "") : secret ∈ parsed.secrets := by
  unfold parseCredentialOp at h
  obtain ⟨-, -, h⟩ := bind_eq_ok h
  obtain ⟨-, h⟩ := raiseIf_eq_ok h
  obtain ⟨op, -, h⟩ := bind_eq_ok h
  obtain ⟨engine, -, h⟩ := bind_eq_ok h
  obtain ⟨connectionName, -, h⟩ := bind_eq_ok h
  obtain ⟨host, -, h⟩ := bind_eq_ok h
  obtain ⟨port, -, h⟩ := bind_eq_ok h
  have hlogin := performed_eq_ok (performed_eq_ok h)
  obtain ⟨-, -, hparsed⟩ := bind_eq_ok hlogin
  obtain rfl := Except.ok.inj hparsed
  rw [List.mem_filter, decide_eq_true_eq]
  refine ⟨?_, hne⟩
  rcases List.mem_cons.mp hmem with rfl | hrest
  · rw [if_neg fun hself => hne hself.2]
    exact List.mem_cons_self
  · exact List.mem_cons_of_mem _ hrest

theorem respond_of_parsed {allowlist contextId : String} {payload : Dict} {parsed : Parsed}
    {execute : Parsed → Except Raised (String × Json)}
    (h : parseCredentialOp allowlist payload (contractVersion payload) = .ok parsed) :
    respond listing allowlist contextId execute payload = run listing execute parsed := by
  unfold respond
  dsimp only
  rw [h]

theorem detail_holds_no_credential (listing : Listing) (allowlist contextId : String)
    (execute : Parsed → Except Raised (String × Json)) (payload : Dict) {secret : String}
    (hmem : secret ∈ credentials payload) (hlength : 4 ≤ secret.length) (hplain : Unmistakable secret) :
    ∀ detail ∈ (respond listing allowlist contextId execute payload).detail, ¬Within secret detail := by
  intro detail hdetail
  have hne : secret ≠ "" := by
    rintro rfl
    exact absurd hlength (by decide)
  unfold respond at hdetail
  dsimp only at hdetail
  split at hdetail
  next => exact envelope_hides hmem hlength hplain hdetail
  next => exact envelope_hides hmem hlength hplain hdetail
  next => exact envelope_hides hmem hlength hplain hdetail
  next parsed hparsed => exact run_hides (credentials_parsed hparsed hmem hne) hlength hplain hdetail

def firstSeen : Listing := ⟨List.dedup, List.mem_dedup, List.nodup_dedup⟩

/-- An error that quotes the new password. -/
theorem policy_error_holds_no_password : ¬∃ detail ∈ (respond firstSeen "*" ""
    (fun _ =>
      .error (.failure ⟨"password 'Sup3rSecret!' was rejected", "OperationalError", 15118, false⟩))
    [("operation", .str "change"), ("newPassword", .str "Sup3rSecret!")]).detail,
      Within "Sup3rSecret!" detail := by
  rintro ⟨detail, hdetail, hwithin⟩
  exact detail_holds_no_credential firstSeen "*" "" _ _ (by decide) (by decide)
    ⟨by decide, by decide, by decide⟩ detail hdetail hwithin

/-- Short credentials are left as they are, so that a message stays readable. -/
theorem scrub_short (h : ∀ secret ∈ secrets, secret.length < 4) :
    scrub listing secrets detail = detail := by
  have hshort : ((listing.list (secrets.filter (· ≠ ""))).mergeSort
      fun a b => b.length ≤ a.length).filter (4 ≤ ·.length) = [] := by
    refine List.filter_eq_nil_iff.mpr fun secret hlisted => ?_
    rw [List.mem_mergeSort, listing.mem_list] at hlisted
    have hlength := h secret (List.mem_of_mem_filter hlisted)
    simp only [decide_eq_true_eq]
    omega
  refine String.toList_inj.mp ?_
  rw [scrub, replaced_eq, hshort]
  rfl

/-- A password of two letters is sent back in the error that quotes it. -/
theorem short_password_sent : ¬∀ (listing : Listing) (allowlist contextId : String)
    (execute : Parsed → Except Raised (String × Json)) (payload : Dict) (secret : String),
    secret ∈ credentials payload → secret ≠ "" →
    ∀ detail ∈ (respond listing allowlist contextId execute payload).detail, ¬Within secret detail := by
  intro h
  let quoting : Parsed → Except Raised (String × Json) := fun _ =>
    .error (.failure ⟨"login failed with pw", "LoginError", 18456, false⟩)
  have hchecked : checkInstance "*" "p:europe-west1:orders" = .ok "p:europe-west1:orders" := by decide
  have hparsed : parseCredentialOp "*" (probe "p:europe-west1:orders" "10.0.0.5") 1 =
      .ok (probed "p:europe-west1:orders" "10.0.0.5") :=
    parseCredentialOp_probe hchecked (by decide) (by decide) (by decide)
  have hscrubbed : scrub firstSeen ["pw"] "login failed with pw" = "login failed with pw" :=
    scrub_short (by decide)
  have hdetail : (respond firstSeen "*" "" quoting (probe "p:europe-west1:orders" "10.0.0.5")).detail =
      some "login failed with pw" := by
    rw [respond_of_parsed hparsed]
    show (if scrub firstSeen ["pw"] "login failed with pw" = "" then none
      else some (scrub firstSeen ["pw"] "login failed with pw")) = _
    rw [hscrubbed]
    rfl
  exact h firstSeen "*" "" quoting _ "pw" (by decide) (by decide) _ hdetail (by decide)

end DbOps
