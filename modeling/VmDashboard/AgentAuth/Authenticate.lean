import VmDashboard.AgentAuth.Signing
import VmDashboard.Machine.System
import VmDashboard.Machine.Table

/-!
# Requests accepted once (`authenticate` and `sweep_nonces` of `services/agent_service.py`)

The signature, the cap of `agent_guard.check_request`, then the nonce: its row is
what refuses a second delivery, for as long as no sweep has taken it.
-/

namespace AgentAuth
open Machine (Table)
open Python (Instant parseInt seconds)

structure RemoteAgent where
  id : String
  isActive : Bool
  publicKey : String
  previousPublicKey : Option String := none
  previousKeyUntil : Option Instant := none
  reportedAnsibleSlots : Option ℤ := none
  lastSeenAt : Option Instant := none
  lastSeenIp : String := ""
  /-- Whether somebody is told that a copy runs with a replaced key. -/
  clone : Bool := false
  deriving DecidableEq

structure AgentNonce where
  agentId : String
  nonce : String
  seenAt : Instant
  deriving DecidableEq

/-- `uq_agent_nonce`. -/
def AgentNonce.key (row : AgentNonce) : String × String := (row.agentId, row.nonce)

structure Db where
  agents : Table RemoteAgent.id
  nonces : Table AgentNonce.key

inductive Refusal
  | agentError (message : String)
  | agentThrottled (retryAfter : ℕ)
  /-- An `OverflowError`, caught by nobody. -/
  | overflow
  deriving DecidableEq

/-! ### The cap on an agent's requests -/

/-- `agent_throttle_enabled` and `agent_max_requests_per_minute`. -/
structure Config where
  enabled : Bool := true
  maxRequests : ℤ := 240

def requestWindowSeconds : ℕ := 60

def maxRowsScanned : ℤ := 1000

def maxReportedAnsibleSlots : ℤ := 8

def ansibleSlots (agent : RemoteAgent) : ℤ :=
  let reported := agent.reportedAnsibleSlots.getD 0
  max 1 (min (if reported = 0 then 1 else reported) maxReportedAnsibleSlots)

def requestWindow : ℕ := seconds (min requestWindowSeconds (signatureWindowSeconds * 4))

def retryAfter (oldest now : Instant) : ℕ := max 1 ((oldest + requestWindow - now) / seconds 1 + 1)

/-- The refusal, if there is one. -/
def checkRequest (config : Config) (db : Db) (agentId : String) (slots : ℤ) (now : Instant) :
    Option Refusal :=
  if ¬config.enabled ∨ agentId = "" ∨ config.maxRequests ≤ 0 then none
  else
    let cap := min (config.maxRequests * max 1 slots) maxRowsScanned
    let stamps := (db.nonces.rows.filter fun row =>
      row.agentId = agentId ∧ now ≤ row.seenAt + requestWindow).map AgentNonce.seenAt
    if cap ≤ stamps.length then some (.agentThrottled (retryAfter (stamps.min?.getD now) now))
    else none

/-! ### Authentication -/

def consumeNonce (db : Db) (agentId nonce : String) (now : Instant) : Option Db :=
  if nonce = "" ∨ 64 < nonce.length then none
  else (db.nonces.insert ⟨agentId, nonce, now⟩).map fun nonces => { db with nonces := nonces }

def setAgent (db : Db) (agentId : String) (f : RemoteAgent → RemoteAgent) (hf : ∀ a, (f a).id = a.id) :
    Db := { db with agents := db.agents.modify agentId f hf }

def caughtPreviousKey (P : Primitives) (agent : RemoteAgent) (req : Request) (now : Instant) : Bool :=
  match agent.previousPublicKey, agent.previousKeyUntil with
  | some old, some expiry =>
    old ≠ "" && now ≤ expiry && verifyRequest P old req now = some true
  | _, _ => false

/-- What `authenticate` leaves behind, and whether it accepts the request. -/
def authenticate (P : Primitives) (config : Config) (db : Db) (req : Request) (ip : String)
    (now : Instant) : Db × Except Refusal Unit :=
  match db.agents.lookup req.agentId with
  | none => (db, .error (.agentError "Unknown or inactive agent."))
  | some agent =>
    if ¬agent.isActive ∨ agent.publicKey = "" then
      (db, .error (.agentError "Unknown or inactive agent."))
    else
      match verifyRequest P agent.publicKey req now with
      | none => (db, .error .overflow)
      | some false =>
        (if caughtPreviousKey P agent req now then
            setAgent db req.agentId (fun a => { a with clone := true }) fun _ => rfl
          else db, .error (.agentError "Signature verification failed."))
      | some true =>
        match checkRequest config db req.agentId (ansibleSlots agent) now with
        | some refusal => (db, .error refusal)
        | none =>
          match consumeNonce db req.agentId req.nonce now with
          | none => (db, .error (.agentError "Replayed request."))
          | some db =>
            (setAgent db req.agentId (fun a => { a with
              lastSeenAt := some now
              lastSeenIp := if ip = "" then a.lastSeenIp else String.ofList (ip.toList.take 45) })
              fun _ => rfl, .ok ())

/-- `older_than_seconds or SIGNATURE_WINDOW_SECONDS * 4`. -/
def sweepHorizon (olderThanSeconds : ℕ) : ℕ :=
  seconds (if olderThanSeconds = 0 then signatureWindowSeconds * 4 else olderThanSeconds)

def sweepNonces (db : Db) (olderThanSeconds : ℕ) (now : Instant) : Db :=
  { db with nonces := db.nonces.filter fun row => ¬row.seenAt + sweepHorizon olderThanSeconds < now }

/-! ### Deliveries -/

structure World where
  db : Db
  now : Instant
  /-- The accepted requests, each with the time it was accepted at. -/
  accepted : List (Instant × Request) := []

inductive Event
  | wait (elapsed : ℕ)
  | deliver (req : Request) (ip : String)
  | sweep
  /-- Anything that happens to the agents: attestation, enrolment, revocation. -/
  | administer (agents : Table RemoteAgent.id)

def step (P : Primitives) (config : Config) (w : World) : Event → World
  | .wait elapsed => { w with now := w.now + elapsed }
  | .deliver req ip =>
    match authenticate P config w.db req ip w.now with
    | (db, .ok ()) => { w with db := db, accepted := w.accepted ++ [(w.now, req)] }
    | (db, .error _) => { w with db := db }
  | .sweep => { w with db := sweepNonces w.db 0 w.now }
  | .administer agents => { w with db := { w.db with agents := agents } }

def server (P : Primitives) (config : Config) : Machine.System World Event :=
  ⟨fun w event => some (step P config w event)⟩

/-! ### What an accepted request leaves -/

theorem consumeNonce_eq_some {db db' : Db} {agentId nonce : String} {now : Instant}
    (h : consumeNonce db agentId nonce now = some db') :
    db.nonces.lookup (agentId, nonce) = none ∧
      db'.nonces.rows = db.nonces.rows ++ [⟨agentId, nonce, now⟩] := by
  unfold consumeNonce at h
  split at h
  · cases h
  · obtain ⟨nonces, hinsert, rfl⟩ := Option.map_eq_some_iff.mp h
    exact Table.insert_eq_some hinsert

/-- A refused request leaves the nonces as they were. -/
theorem nonces_of_refused {P : Primitives} {config : Config} {db db' : Db} {req : Request}
    {ip : String} {now : Instant} {refusal : Refusal}
    (h : authenticate P config db req ip now = (db', .error refusal)) : db'.nonces = db.nonces := by
  unfold authenticate at h
  split at h
  · exact congrArg Db.nonces (Prod.mk.inj h).1.symm
  · split at h
    · exact congrArg Db.nonces (Prod.mk.inj h).1.symm
    · split at h
      · exact congrArg Db.nonces (Prod.mk.inj h).1.symm
      · rw [← (Prod.mk.inj h).1]
        split <;> rfl
      · split at h
        · exact congrArg Db.nonces (Prod.mk.inj h).1.symm
        · split at h
          · exact congrArg Db.nonces (Prod.mk.inj h).1.symm
          · cases (Prod.mk.inj h).2

/-- An accepted request is fresh, its nonce was not there, and it is there now. -/
theorem of_accepted {P : Primitives} {config : Config} {db db' : Db} {req : Request} {ip : String}
    {now : Instant} (h : authenticate P config db req ip now = (db', .ok ())) :
    (∃ key, verifyRequest P key req now = some true) ∧
      db.nonces.lookup (req.agentId, req.nonce) = none ∧
        db'.nonces.rows = db.nonces.rows ++ [⟨req.agentId, req.nonce, now⟩] := by
  unfold authenticate at h
  split at h
  · cases (Prod.mk.inj h).2
  · split at h
    · cases (Prod.mk.inj h).2
    · split at h
      · cases (Prod.mk.inj h).2
      · cases (Prod.mk.inj h).2
      next agent _ _ hverify =>
        split at h
        · cases (Prod.mk.inj h).2
        · split at h
          · cases (Prod.mk.inj h).2
          next db'' hconsume =>
            obtain ⟨hnone, hrows⟩ := consumeNonce_eq_some hconsume
            rw [← (Prod.mk.inj h).1]
            exact ⟨⟨_, hverify⟩, hnone, hrows⟩

end AgentAuth
