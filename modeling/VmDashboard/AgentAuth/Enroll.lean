import VmDashboard.Login.Guard

/-!
# The enrolment throttle (`check_enroll` of `services/agent_guard.py`)

It counts the failures of the window, of an address and of all.
-/

namespace AgentAuth
open Python (Instant)
open LoginGuard (cutoff timedelta)

structure EnrollAttempt where
  ip : String
  attemptedAt : Instant
  deriving DecidableEq

/-- `agent_throttle_enabled` and the `agent_enroll_*` settings. -/
structure EnrollConfig where
  enabled : Bool := true
  maxPerIp : ℤ := 10
  maxGlobal : ℤ := 200
  windowMinutes : ℤ := 15

def maxEnrollRowsScanned : ℕ := 1000

inductive EnrollScope
  | ip
  | global
  deriving DecidableEq

inductive EnrollRefusal
  | agentThrottled (retryAfter : ℤ) (scope : EnrollScope)
  /-- An `OverflowError` of `datetime`. -/
  | overflow
  deriving DecidableEq

/-- `_retry_after`. -/
def enrollRetryAfter (config : EnrollConfig) (oldest now : Instant) : ℤ :=
  max 1 ((oldest + timedelta config.windowMinutes - now) / 1000000 + 1)

/-- The rows of the window that the scan takes. -/
def failures (rows : List EnrollAttempt) (oldest : ℤ) : List EnrollAttempt :=
  ((rows.filter fun row => oldest ≤ row.attemptedAt).insertionSort
    fun a b => a.attemptedAt ≤ b.attemptedAt).take maxEnrollRowsScanned

/-- The refusal, if there is one. -/
def checkEnroll (config : EnrollConfig) (rows : List EnrollAttempt) (ip : String) (now : Instant) :
    Option EnrollRefusal :=
  if ¬config.enabled then none
  else
    match cutoff now config.windowMinutes with
    | none => some .overflow
    | some oldest =>
      let rows := failures rows oldest
      let ipStamps := (rows.filter (·.ip = ip)).map EnrollAttempt.attemptedAt
      let stamps := rows.map EnrollAttempt.attemptedAt
      if rows = [] then none
      else if ip ≠ "" ∧ 0 < config.maxPerIp ∧ config.maxPerIp ≤ ipStamps.length then
        some (.agentThrottled (enrollRetryAfter config (ipStamps.headD 0) now) .ip)
      else if 0 < config.maxGlobal ∧ config.maxGlobal ≤ stamps.length then
        some (.agentThrottled (enrollRetryAfter config (stamps.headD 0) now) .global)
      else none

end AgentAuth
