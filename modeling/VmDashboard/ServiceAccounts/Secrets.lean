import VmDashboard.Machine.Except
import VmDashboard.Machine.System
import VmDashboard.Python.Clock
import VmDashboard.Python.Digest
import VmDashboard.ServiceAccounts.Account
import VmDashboard.Spiffe.Assertion

/-!
# The secrets of an OAuth client

`create_client`, `rotate_client` and `authenticate_client` of `services/service_accounts.py`, for one
client. The row has a slot for the current secret and one for the previous; `issued` lists every
secret it was given with the end each may be accepted until. `digest` is `hash_secret`.
-/

namespace ServiceAccounts
open Python (Instant orNone)

def defaultTokenTtlSeconds : ℤ := 900

def minTokenTtlSeconds : ℤ := 60

def maxTokenTtlSeconds : ℤ := 3600

def defaultSecretDays : ℤ := 90

def maxSecretDays : ℤ := 365

def defaultRotationGraceMinutes : ℤ := 60

def maxRotationGraceMinutes : ℤ := 7 * 24 * 60

def bounded (value : Option ℤ) (default lo hi : ℤ) (what : String) : Except String ℤ :=
  match value with
  | none => .ok default
  | some n =>
    if n < lo ∨ hi < n then
      .error (what ++ " must be between " ++ toString lo ++ " and " ++ toString hi ++ ".")
    else .ok n

/-- `timedelta(days=n)`. -/
def days (n : ℤ) : ℕ := Python.minutes (24 * 60 * n.toNat)

/-- `timedelta(minutes=n)`. -/
def minutes (n : ℤ) : ℕ := Python.minutes n.toNat

structure OAuthClient where
  clientId : String
  userId : String
  name : String
  secretHash : String
  secretExpiresAt : Option Instant
  previousSecretHash : Option String
  previousExpiresAt : Option Instant
  tokenTtlSeconds : ℤ
  createdBy : Option String
  isActive : Bool
  authMethod : Option String
  spiffeId : Option String
  deriving DecidableEq

/-! ### SPIFFE IDs of a client -/

def validSpiffeId (spiffeId : String) : Bool :=
  let sid := Python.strip spiffeId
  Spiffe.trustDomainOf sid ≠ "" && sid.length ≤ 500 && !sid.toList.any Python.isSpace &&
    !sid.toList.contains '?' && !sid.toList.contains '#'

def workloadPrefix : String := "/workload/"

/-- What `create_client` asks the rest of the database about a SPIFFE ID: the dashboard's own trust
domain, whether the ID has a reserved path in it, and whether an active client has the ID. -/
structure SpiffeFacts where
  own : Option String
  reserved : Bool
  taken : Bool

def spiffeProblem (facts : SpiffeFacts) (spiffeId : String) : Option String :=
  if spiffeId = "" then none
  else if !validSpiffeId spiffeId then
    some (Python.reprText spiffeId ++ " is not a SPIFFE ID (spiffe://<trust-domain>/<path>).")
  else
    match facts.own.filter fun _ => facts.reserved with
    | some trustDomain =>
      some (spiffeId ++ " is reserved in the dashboard's own trust domain (remote agents and the " ++
        "dashboard itself). Use a path under spiffe://" ++ trustDomain ++ workloadPrefix ++ ".")
    | none =>
      if facts.taken then
        some (spiffeId ++ " already authenticates an active OAuth client. One identity, one " ++
          "client -- revoke that one first.")
      else none

/-! ### The calls -/

structure CreateRequest where
  name : String
  secretDays : Option ℤ
  tokenTtlSeconds : Option ℤ
  createdBy : String
  spiffeId : String

/-- What `secrets` draws. -/
structure Draw where
  clientId : String
  raw : String

def raiseIf (problem : Option String) : Except String Unit :=
  match problem with
  | some message => .error message
  | none => .ok ()

section Calls
variable (digest : String → String)

def createClient (now : Instant) (user : User) (facts : SpiffeFacts) (request : CreateRequest)
    (draw : Draw) : Except String OAuthClient := do
  let spiffeId := Python.strip request.spiffeId
  raiseIf (spiffeProblem facts spiffeId)
  raiseIf (serviceAccountProblem (some user))
  let name := Python.strip request.name
  raiseIf (if name = "" then some "An OAuth client needs a name." else none)
  let lifetime ← bounded request.secretDays defaultSecretDays 1 maxSecretDays
    "Secret lifetime (days)"
  let ttl ← bounded request.tokenTtlSeconds defaultTokenTtlSeconds minTokenTtlSeconds
    maxTokenTtlSeconds "Access-token lifetime (seconds)"
  return {
    clientId := draw.clientId
    userId := user.id
    name := String.ofList (name.toList.take 100)
    secretHash := digest draw.raw
    secretExpiresAt := some (now + days lifetime)
    previousSecretHash := none
    previousExpiresAt := none
    tokenTtlSeconds := ttl
    createdBy := orNone request.createdBy
    isActive := true
    authMethod := if spiffeId = "" then none else some Spiffe.authMethod
    spiffeId := orNone spiffeId }

/-- `min(grace_end, old_end) if old_end else grace_end`. -/
def previousEnd (graceEnd : Instant) : Option Instant → Instant
  | some oldEnd => min graceEnd oldEnd
  | none => graceEnd

def rotateClient (now : Instant) (client : OAuthClient) (secretDays graceMinutes : Option ℤ)
    (raw : String) : Except String OAuthClient := do
  raiseIf (if client.isActive then none
    else some "That client is revoked. Create a new one instead.")
  raiseIf (if client.authMethod = some "spiffe_jwt" then
    some "That client authenticates with a SPIFFE JWT-SVID and has no secret to rotate." else none)
  let lifetime ← bounded secretDays defaultSecretDays 1 maxSecretDays "Secret lifetime (days)"
  let grace ← bounded graceMinutes defaultRotationGraceMinutes 0 maxRotationGraceMinutes
    "Rotation grace (minutes)"
  let kept :=
    if grace = 0 then { client with previousSecretHash := none, previousExpiresAt := none }
    else { client with
      previousSecretHash := some client.secretHash
      previousExpiresAt := some (previousEnd (now + minutes grace) client.secretExpiresAt) }
  return { kept with secretHash := digest raw, secretExpiresAt := some (now + days lifetime) }

/-- Whether the presented hash is the current one or the previous, and its time has not come. -/
def OAuthClient.slotAccepts (client : OAuthClient) (presented : String) (now : Instant) : Bool :=
  if client.secretHash ≠ "" ∧ presented = client.secretHash then
    client.secretExpiresAt.all (now < ·)
  else if client.previousSecretHash.any fun hash => hash ≠ "" && presented = hash then
    client.previousExpiresAt.any (now < ·)
  else false

/-- `client` and `user` are what the two queries find. -/
def authenticateClient (client : Option OAuthClient) (user : Option User) (clientId secret : String)
    (now : Instant) : Option OAuthClient :=
  if clientId = "" ∨ secret = "" then none
  else
    client.filter fun client =>
      client.isActive && client.authMethod ≠ some "spiffe_jwt" &&
        client.slotAccepts (digest secret) now && (serviceAccountProblem user).isNone

end Calls

/-! ### Runs -/

/-- A secret as it was issued. `graceEnd` is set when it is rotated out. -/
structure Secret where
  raw : String
  issuedAt : Instant
  expiry : Instant
  graceEnd : Option Instant

structure World where
  now : Instant
  client : Option OAuthClient
  issued : List Secret
  revoked : Bool

def World.start : World := ⟨0, none, [], false⟩

/-- `cellExpiry` is the end an agent cell gives the secret of the client it creates. -/
inductive Call where
  | create (user : User) (facts : SpiffeFacts) (request : CreateRequest) (draw : Draw)
      (cellExpiry : Option Instant)
  | rotate (secretDays graceMinutes : Option ℤ) (raw : String)
  | authenticate (user : Option User) (clientId secret : String)
  | revoke

/-- The end a secret has from the moment it is issued. -/
def expiryOf (now : Instant) (secretDays : Option ℤ) : Instant :=
  now + days (secretDays.getD defaultSecretDays)

/-- The end of the grace that a rotation gives. -/
def graceEndOf (now : Instant) (graceMinutes : Option ℤ) : Instant :=
  now + minutes (graceMinutes.getD defaultRotationGraceMinutes)

/-- The newest secret is rotated out. -/
def rotatedOut (graceEnd : Instant) : List Secret → List Secret
  | [] => []
  | secret :: older => { secret with graceEnd := some graceEnd } :: older

section Runs
variable (digest : String → String)

/-- A raw secret is drawn afresh: no call draws one that was issued before. -/
def World.perform (w : World) : Call → Option World
  | .create user facts request draw cellExpiry =>
    if w.client.isSome ∨ ∃ secret ∈ w.issued, secret.raw = draw.raw then none
    else
      match createClient digest w.now user facts request draw with
      | .error _ => some w
      | .ok client =>
        let client := { client with secretExpiresAt := cellExpiry.or client.secretExpiresAt }
        some { w with
          client := some client
          issued := [⟨draw.raw, w.now, cellExpiry.getD (expiryOf w.now request.secretDays), none⟩] }
  | .rotate secretDays graceMinutes raw =>
    if ∃ secret ∈ w.issued, secret.raw = raw then none
    else
      w.client.map fun client =>
        match rotateClient digest w.now client secretDays graceMinutes raw with
        | .error _ => w
        | .ok client =>
          { w with
            client := some client
            issued := ⟨raw, w.now, expiryOf w.now secretDays, none⟩ ::
              rotatedOut (graceEndOf w.now graceMinutes) w.issued }
  | .authenticate .. => some w
  | .revoke => w.client.map fun client =>
    { w with client := some { client with isActive := false }, revoked := true }

def World.step (w : World) : Instant × Call → Option World
  | (now, call) => if w.now ≤ now then World.perform digest { w with now } call else none

def clientSystem : Machine.System World (Instant × Call) where
  step := World.step digest

def World.find (w : World) (clientId : String) : Option OAuthClient :=
  w.client.filter (·.clientId = clientId)

/-- The secret is accepted at `t`, for some state of the account. -/
def World.Accepts (w : World) (t : Instant) (raw : String) : Prop :=
  ∃ user clientId, (authenticateClient digest (w.find clientId) user clientId raw t).isSome

/-- From now on a secret is accepted only after it was issued, before its own expiry and, once
rotated out, before the end of its grace; no three are accepted at once, and none after a revoke. -/
structure Lawful (w : World) : Prop where
  issued : ∀ t ≥ w.now, ∀ raw, w.Accepts digest t raw → ∃ secret ∈ w.issued, secret.raw = raw
  within : ∀ t ≥ w.now, ∀ raw, w.Accepts digest t raw → ∀ secret ∈ w.issued, secret.raw = raw →
    secret.issuedAt ≤ t ∧ t < secret.expiry ∧ ∀ graceEnd ∈ secret.graceEnd, t < graceEnd
  two : ∀ t ≥ w.now, ∃ r r', ∀ raw, w.Accepts digest t raw → raw = r ∨ raw = r'
  revoked : w.revoked = true → ∀ t raw, ¬w.Accepts digest t raw

/-! ### What the calls leave in the row -/

theorem bounded_eq_ok {value : Option ℤ} {default lo hi n : ℤ} {what : String}
    (h : bounded value default lo hi what = .ok n) : n = value.getD default := by
  unfold bounded at h
  split at h
  · exact (Except.ok.inj h).symm
  · split at h
    · cases h
    · exact (Except.ok.inj h).symm

theorem raiseIf_eq_ok {problem : Option String} {u : Unit} (h : raiseIf problem = .ok u) :
    problem = none := by
  unfold raiseIf at h
  split at h
  · cases h
  · rfl

variable {digest}

theorem createClient_eq_ok {now : Instant} {user : User} {facts : SpiffeFacts}
    {request : CreateRequest} {draw : Draw} {client : OAuthClient}
    (h : createClient digest now user facts request draw = .ok client) :
    client.secretHash = digest draw.raw ∧
      client.secretExpiresAt = some (expiryOf now request.secretDays) ∧
      client.previousSecretHash = none ∧ client.isActive = true := by
  obtain ⟨-, -, h⟩ := Machine.bind_eq_ok h
  obtain ⟨-, -, h⟩ := Machine.bind_eq_ok h
  obtain ⟨-, -, h⟩ := Machine.bind_eq_ok h
  obtain ⟨lifetime, hlifetime, h⟩ := Machine.bind_eq_ok h
  obtain ⟨ttl, -, h⟩ := Machine.bind_eq_ok h
  obtain rfl := Except.ok.inj h
  rw [bounded_eq_ok hlifetime]
  exact ⟨rfl, rfl, rfl, rfl⟩

theorem previousEnd_le (graceEnd oldEnd : Instant) :
    previousEnd graceEnd (some oldEnd) ≤ graceEnd ∧ previousEnd graceEnd (some oldEnd) ≤ oldEnd :=
  ⟨Nat.min_le_left .., Nat.min_le_right ..⟩

/-- The current secret moves to the previous slot, or no secret is in it. -/
theorem rotateClient_eq_ok {now : Instant} {client after : OAuthClient}
    {secretDays graceMinutes : Option ℤ} {raw : String}
    (h : rotateClient digest now client secretDays graceMinutes raw = .ok after) :
    client.isActive = true ∧ after.isActive = true ∧ after.secretHash = digest raw ∧
      after.secretExpiresAt = some (expiryOf now secretDays) ∧
      (after.previousSecretHash = none ∨
        after.previousSecretHash = some client.secretHash ∧ after.previousExpiresAt =
          some (previousEnd (graceEndOf now graceMinutes) client.secretExpiresAt)) := by
  obtain ⟨u, hactive, h⟩ := Machine.bind_eq_ok h
  obtain ⟨-, -, h⟩ := Machine.bind_eq_ok h
  obtain ⟨lifetime, hlifetime, h⟩ := Machine.bind_eq_ok h
  obtain ⟨grace, hgrace, h⟩ := Machine.bind_eq_ok h
  obtain rfl := Except.ok.inj h
  have hactive : client.isActive = true := by
    by_contra hne
    have := raiseIf_eq_ok hactive
    rw [if_neg hne] at this
    cases this
  rw [bounded_eq_ok hlifetime, graceEndOf, ← bounded_eq_ok hgrace]
  split
  · exact ⟨hactive, hactive, rfl, rfl, .inl rfl⟩
  · exact ⟨hactive, hactive, rfl, rfl, .inr ⟨rfl, rfl⟩⟩

/-- An accepted secret has the hash of one of the two slots, before the end of that slot. -/
theorem accepts_cases {w : World} {t : Instant} {raw : String} (h : w.Accepts digest t raw) :
    ∃ client, w.client = some client ∧ client.isActive = true ∧
      (digest raw = client.secretHash ∧ (∀ e ∈ client.secretExpiresAt, t < e) ∨
        client.previousSecretHash = some (digest raw) ∧ ∃ e ∈ client.previousExpiresAt, t < e) := by
  obtain ⟨user, clientId, h⟩ := h
  unfold authenticateClient at h
  split at h
  · cases h
  obtain ⟨client, hclient⟩ := Option.isSome_iff_exists.mp h
  obtain ⟨hfound, hcheck⟩ := Option.filter_eq_some_iff.mp hclient
  have hrow : w.client = some client := (Option.filter_eq_some_iff.mp hfound).1
  simp only [Bool.and_eq_true] at hcheck
  obtain ⟨⟨⟨hactive, -⟩, hslot⟩, -⟩ := hcheck
  refine ⟨client, hrow, hactive, ?_⟩
  unfold OAuthClient.slotAccepts at hslot
  split at hslot
  next hcurrent =>
    refine .inl ⟨hcurrent.2, fun e he => ?_⟩
    rw [Option.mem_def.mp he] at hslot
    exact of_decide_eq_true hslot
  · split at hslot
    next hprevious =>
      obtain ⟨hash, hhash, heq⟩ := (Option.any_eq_true _ _).mp hprevious
      simp only [Bool.and_eq_true, decide_eq_true_eq] at heq
      obtain ⟨e, he, hlater⟩ := (Option.any_eq_true _ _).mp hslot
      exact .inr ⟨heq.2 ▸ hhash, e, he, of_decide_eq_true hlater⟩
    · cases hslot

/-! ### The two slots and the secrets issued -/

/-- The current slot holds the newest secret, and the previous slot, if anything, the one before it
with an end that neither its expiry nor its grace is before. -/
structure Slots (digest : String → String) (client : OAuthClient) (current : Secret)
    (older : List Secret) : Prop where
  hash : client.secretHash = digest current.raw
  expiry : client.secretExpiresAt = some current.expiry
  live : current.graceEnd = none
  previous : ∀ hash ∈ client.previousSecretHash, ∃ secret rest, older = secret :: rest ∧
    hash = digest secret.raw ∧ ∀ e ∈ client.previousExpiresAt, e ≤ secret.expiry ∧
      ∃ graceEnd, secret.graceEnd = some graceEnd ∧ e ≤ graceEnd

structure Invariant (digest : String → String) (w : World) : Prop where
  distinct : (w.issued.map Secret.raw).Nodup
  past : ∀ secret ∈ w.issued, secret.issuedAt ≤ w.now
  slots : ∀ client ∈ w.client, ∃ current older, w.issued = current :: older ∧
    Slots digest client current older
  revoked : w.revoked = true → ∃ client ∈ w.client, client.isActive = false

theorem start_invariant : Invariant digest .start where
  distinct := List.nodup_nil
  past _ h := absurd h List.not_mem_nil
  slots _ h := absurd h (by simp [World.start])
  revoked h := absurd h (by simp [World.start])

theorem Invariant.at_later {w : World} (h : Invariant digest w) {now : Instant} (hnow : w.now ≤ now) :
    Invariant digest { w with now } where
  distinct := h.distinct
  past secret hsecret := (h.past secret hsecret).trans hnow
  slots := h.slots
  revoked := h.revoked

theorem mem_rotatedOut {graceEnd : Instant} {secrets : List Secret} {secret : Secret}
    (h : secret ∈ rotatedOut graceEnd secrets) :
    ∃ old ∈ secrets, old.raw = secret.raw ∧ old.issuedAt = secret.issuedAt := by
  cases secrets with
  | nil => cases h
  | cons head older =>
    rcases List.mem_cons.mp h with rfl | hold
    · exact ⟨head, List.mem_cons_self, rfl, rfl⟩
    · exact ⟨secret, List.mem_cons_of_mem head hold, rfl, rfl⟩

theorem map_rotatedOut (graceEnd : Instant) (secrets : List Secret) :
    (rotatedOut graceEnd secrets).map Secret.raw = secrets.map Secret.raw := by
  cases secrets <;> rfl

theorem invariant_create {w after : World} {user : User} {facts : SpiffeFacts}
    {request : CreateRequest} {draw : Draw} {cellExpiry : Option Instant} (h : Invariant digest w)
    (hstep : w.perform digest (.create user facts request draw cellExpiry) = some after) :
    Invariant digest after := by
  simp only [World.perform, Option.ite_none_left_eq_some, not_or] at hstep
  obtain ⟨⟨hnone, -⟩, hstep⟩ := hstep
  split at hstep
  next =>
    obtain rfl := Option.some.inj hstep
    exact h
  next client hclient =>
    obtain rfl := Option.some.inj hstep
    obtain ⟨hhash, hexpiry, hprevious, -⟩ := createClient_eq_ok hclient
    refine ⟨List.nodup_singleton _, ?_, ?_, ?_⟩
    · intro secret hsecret
      obtain rfl := List.mem_singleton.mp hsecret
      exact le_rfl
    · intro row hrow
      obtain rfl := Option.some.inj hrow
      refine ⟨_, [], rfl, hhash, ?_, rfl, ?_⟩
      · exact (congrArg (Option.or cellExpiry) hexpiry).trans Option.or_some
      · intro hash hhash
        rw [hprevious] at hhash
        cases hhash
    · intro hrevoked
      obtain ⟨row, hrow, -⟩ := h.revoked hrevoked
      rw [Option.mem_def.mp hrow] at hnone
      exact absurd rfl hnone

theorem slots_rotate {now : Instant} {client after : OAuthClient} {secretDays graceMinutes : Option ℤ}
    {raw : String} {current : Secret} {older : List Secret} (h : Slots digest client current older)
    (hrotate : rotateClient digest now client secretDays graceMinutes raw = .ok after) :
    Slots digest after ⟨raw, now, expiryOf now secretDays, none⟩
      (rotatedOut (graceEndOf now graceMinutes) (current :: older)) := by
  obtain ⟨-, -, hhash, hexpiry, hprevious⟩ := rotateClient_eq_ok hrotate
  refine ⟨hhash, hexpiry, rfl, fun hash hmem => ?_⟩
  rcases hprevious with hnone | ⟨hkept, hend⟩
  · rw [hnone] at hmem
    cases hmem
  · rw [hkept] at hmem
    obtain rfl := Option.some.inj hmem
    refine ⟨_, older, rfl, h.hash, fun e he => ?_⟩
    rw [hend, h.expiry] at he
    obtain rfl := Option.some.inj he
    obtain ⟨hgrace, hold⟩ := previousEnd_le (graceEndOf now graceMinutes) current.expiry
    exact ⟨hold, _, rfl, hgrace⟩

theorem invariant_rotate {w after : World} {secretDays graceMinutes : Option ℤ} {raw : String}
    (h : Invariant digest w)
    (hstep : w.perform digest (.rotate secretDays graceMinutes raw) = some after) :
    Invariant digest after := by
  simp only [World.perform, Option.ite_none_left_eq_some, Option.map_eq_some_iff] at hstep
  obtain ⟨hfresh, client, hclient, hstep⟩ := hstep
  split at hstep
  next =>
    subst hstep
    exact h
  next rotated hrotated =>
    subst hstep
    obtain ⟨hactive, -⟩ := rotateClient_eq_ok hrotated
    obtain ⟨current, older, hissued, hslots⟩ := h.slots client hclient
    refine ⟨?_, ?_, ?_, ?_⟩
    · simp only [List.map_cons, map_rotatedOut, List.nodup_cons]
      refine ⟨fun hmem => hfresh ?_, h.distinct⟩
      obtain ⟨secret, hsecret, hraw⟩ := List.mem_map.mp hmem
      exact ⟨secret, hsecret, hraw⟩
    · intro secret hsecret
      rcases List.mem_cons.mp hsecret with rfl | hold
      · exact le_rfl
      · obtain ⟨old, hmem, -, hat⟩ := mem_rotatedOut hold
        exact hat ▸ h.past old hmem
    · intro row hrow
      obtain rfl := Option.some.inj hrow
      refine ⟨_, _, rfl, ?_⟩
      rw [hissued]
      exact slots_rotate hslots hrotated
    · intro hrevoked
      obtain ⟨row, hrow, hinactive⟩ := h.revoked hrevoked
      obtain rfl := Option.some.inj (hrow.symm.trans hclient)
      rw [hactive] at hinactive
      cases hinactive

theorem invariant_perform {w after : World} {call : Call} (h : Invariant digest w)
    (hstep : w.perform digest call = some after) : Invariant digest after := by
  cases call with
  | create user facts request draw cellExpiry => exact invariant_create h hstep
  | rotate secretDays graceMinutes raw => exact invariant_rotate h hstep
  | authenticate user clientId secret =>
    obtain rfl := Option.some.inj hstep
    exact h
  | revoke =>
    obtain ⟨client, hclient, rfl⟩ := Option.map_eq_some_iff.mp hstep
    refine ⟨h.distinct, h.past, fun row hrow => ?_, fun _ => ⟨_, rfl, rfl⟩⟩
    obtain rfl := Option.some.inj hrow
    obtain ⟨current, older, hissued, hslots⟩ := h.slots client hclient
    exact ⟨current, older, hissued, hslots.hash, hslots.expiry, hslots.live, hslots.previous⟩

theorem invariant_step (w : World) (event : Instant × Call) (after : World)
    (h : Invariant digest w) (hstep : w.step digest event = some after) :
    Invariant digest after := by
  obtain ⟨now, call⟩ := event
  simp only [World.step, Option.ite_none_right_eq_some] at hstep
  exact invariant_perform (h.at_later hstep.1) hstep.2

/-! ### What is accepted -/

/-- Of two hashes, one for each slot. -/
theorem accepted_slot (hdigest : Function.Injective digest) {w : World} (h : Invariant digest w)
    {t : Instant} (ht : w.now ≤ t) {raw : String} (haccepts : w.Accepts digest t raw) :
    ∃ secret ∈ w.issued.take 2, secret.raw = raw ∧ secret.issuedAt ≤ t ∧ t < secret.expiry ∧
      ∀ graceEnd ∈ secret.graceEnd, t < graceEnd := by
  obtain ⟨client, hclient, -, hslot⟩ := accepts_cases haccepts
  obtain ⟨current, older, hissued, hslots⟩ := h.slots client hclient
  rw [hissued]
  rcases hslot with ⟨hhash, hlater⟩ | ⟨hhash, e, he, hlater⟩
  · have hraw : current.raw = raw := hdigest (hslots.hash.symm.trans hhash.symm)
    have hpast := h.past current (hissued ▸ List.mem_cons_self)
    refine ⟨current, List.mem_cons_self, hraw, hpast.trans ht, hlater _ hslots.expiry, ?_⟩
    rw [hslots.live]
    exact nofun
  · obtain ⟨secret, rest, rfl, hdig, hend⟩ := hslots.previous _ hhash
    obtain ⟨hexpiry, graceEnd, hgrace, hle⟩ := hend e he
    have hmem : secret ∈ w.issued :=
      hissued ▸ List.mem_cons_of_mem current List.mem_cons_self
    refine ⟨secret, by simp, (hdigest hdig).symm, (h.past secret hmem).trans ht,
      hlater.trans_le hexpiry, fun g hg => ?_⟩
    obtain rfl := Option.some.inj (hgrace.symm.trans hg)
    exact hlater.trans_le hle

theorem lawful_of_invariant (hdigest : Function.Injective digest) {w : World}
    (h : Invariant digest w) : Lawful digest w where
  issued t ht raw haccepts := by
    obtain ⟨secret, hmem, hraw, -⟩ := accepted_slot hdigest h ht haccepts
    exact ⟨secret, List.mem_of_mem_take hmem, hraw⟩
  within t ht raw haccepts secret hsecret hraw := by
    obtain ⟨found, hmem, hfound, hwindow⟩ := accepted_slot hdigest h ht haccepts
    obtain rfl := List.inj_on_of_nodup_map h.distinct hsecret (List.mem_of_mem_take hmem)
      (hraw.trans hfound.symm)
    exact hwindow
  two t ht := by
    refine ⟨(w.issued.map Secret.raw).getD 0 "", (w.issued.map Secret.raw).getD 1 "",
      fun raw haccepts => ?_⟩
    obtain ⟨secret, hmem, rfl, -⟩ := accepted_slot hdigest h ht haccepts
    generalize w.issued = issued at hmem ⊢
    rcases issued with - | ⟨current, - | ⟨previous, older⟩⟩
    · cases hmem
    · obtain rfl := List.mem_singleton.mp hmem
      exact .inl rfl
    · rcases List.mem_pair.mp hmem with rfl | rfl
      · exact .inl rfl
      · exact .inr rfl
  revoked hrevoked t raw haccepts := by
    obtain ⟨row, hrow, hinactive⟩ := h.revoked hrevoked
    obtain ⟨client, hclient, hactive, -⟩ := accepts_cases haccepts
    obtain rfl := Option.some.inj (hrow.symm.trans hclient)
    rw [hactive] at hinactive
    cases hinactive

/-- Along every run of calls on a client, no rotation extends a secret. -/
theorem rotation_never_extends (digest : String → String) (hdigest : Function.Injective digest)
    (events : List (Instant × Call)) :
    (clientSystem digest).Always (Lawful digest) .start events :=
  (clientSystem digest).always_mono (fun _ h => lawful_of_invariant hdigest h)
    ((clientSystem digest).always_of_step invariant_step events start_invariant)

end Runs

/- A client is created, its secret rotated twice inside the grace of the first, and then revoked. -/

def worker : User :=
  ⟨"u-1", "worker", true, false, true, none, .empty, .empty, .empty, .empty, none⟩

def rotatedTwice : List (Instant × Call) :=
  [(0, .create worker ⟨none, false, false⟩ ⟨"ci", some 1, none, "admin", ""⟩ ⟨"vmsa_1", "vmss_1"⟩ none),
    (Python.minutes 10, .rotate (some 30) (some 60) "vmss_2"),
    (Python.minutes 20, .rotate none (some 10080) "vmss_3"),
    (Python.minutes 25, .authenticate (some worker) "vmsa_1" "vmss_2"), (Python.minutes 30, .revoke)]

def sampleDigest : String → String :=
  Python.digestWith
    [("vmss_1", "5529cee3880a69590b59786e93695294a67d534cc234323eb6c92b4009a630b9"),
      ("vmss_2", "431de6d5240965f3a40063f5f260f503d416b5f6305a9c509b1768d53364ea53"),
      ("vmss_3", "28dbdbdf7ddffd9b7da6c725e72d9699c2f67850818cd27302aa00a2bd2ab2b5")]

theorem rotatedTwice_lawful :
    (clientSystem sampleDigest).Always (Lawful sampleDigest) .start rotatedTwice :=
  rotation_never_extends sampleDigest (Python.digestWith_injective (by decide) (by decide)) _

/-- In that run the second secret is accepted beside the third, and the first no longer is. -/
example : ((clientSystem sampleDigest).exec .start (rotatedTwice.take 4)).map (fun w =>
    ["vmss_1", "vmss_2", "vmss_3"].map fun raw => (authenticateClient sampleDigest
      (w.find "vmsa_1") (some worker) "vmsa_1" raw w.now).isSome) = some [false, true, true] := by
  decide +kernel

end ServiceAccounts
