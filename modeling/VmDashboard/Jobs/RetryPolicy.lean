import VmDashboard.Python.Case

/-!
# Which failed jobs are run again (`services/retry_policy.py`)

Two allowlists, the retryable job types and the transient error signals, a
short list of permanent overrides, and an attempt ceiling clamped to the
backoff schedule.
-/

namespace Jobs.RetryPolicy

def backoffTable : List ℕ := [30, 120, 600, 1800]

def defaultMaxAttempts : ℤ := 3
def minMaxAttempts : ℤ := 1
def maxMaxAttempts : ℤ := backoffTable.length + 1

def retryableTypes : List String :=
  ["ec2_power", "azure_power", "gce_power", "oci_power", "pov_env_power",
   "ec2_destroy", "azure_destroy", "gce_destroy", "oci_destroy", "pov_env_destroy"]

def transientSignals : List String :=
  ["throttl", "rate exceeded", "requestlimitexceeded", "toomanyrequests",
   "too many requests", "429", "quota exceeded temporarily", "retry later",
   "insufficientinstancecapacity", "insufficient capacity", "capacityerror",
   "zone_resource_pool_exhausted", "out of capacity", "allocationfailed",
   "servicebusy", "resourcenotavailable",
   "internalerror", "internal server error", "internalservererror",
   "serviceunavailable", "service unavailable", "500", "502", "503", "504",
   "badgateway", "gatewaytimeout",
   "timed out", "timeout", "connection reset", "connection aborted",
   "connectionerror", "temporarily unavailable", "eof occurred",
   "expiredtoken", "token has expired", "securitytokenexpired",
   "request has expired", "credentials have expired",
   "token included in the request is expired"]

def permanentOverrides : List String :=
  ["quotaexceeded", "limitexceeded", "quota_exceeded",
   "invalidparameter", "validationerror", "validationexception",
   "notfound", "does not exist", "accessdenied", "unauthorized", "forbidden",
   "invalidclienttokenid", "authfailure", "signaturedoesnotmatch"]

/-- The configured ceiling as `int` reads it: `none` when it is not configured, `some none`
when the value is no number. -/
abbrev Limit := Option (Option ℤ)

def maxAttempts : Limit → ℤ
  | none => max minMaxAttempts (min maxMaxAttempts defaultMaxAttempts)
  | some none => defaultMaxAttempts
  | some (some value) => max minMaxAttempts (min maxMaxAttempts value)

def backoffSeconds (attemptsMade : ℕ) : ℕ :=
  backoffTable.getD (min attemptsMade (backoffTable.length - 1)) 0

def retryableType (jobType : String) : Bool := retryableTypes.contains jobType

def isTransient (error : String) : Bool :=
  let text := Python.lower error
  text ≠ "" && transientSignals.any (Python.containsText text) &&
    !permanentOverrides.any (Python.containsText text)

def shouldRetry (jobType error : String) (attemptsMade : ℕ) (limit : Limit) : Bool :=
  retryableType jobType && isTransient error &&
    decide ((attemptsMade : ℤ) + 1 < maxAttempts limit)

theorem maxAttempts_bounds (limit : Limit) : 1 ≤ maxAttempts limit ∧ maxAttempts limit ≤ 5 := by
  have hmin : minMaxAttempts = 1 := rfl
  have hmax : maxMaxAttempts = 5 := rfl
  have hdef : defaultMaxAttempts = 3 := rfl
  match limit with
  | none => simp only [maxAttempts]; omega
  | some none => simp only [maxAttempts]; omega
  | some (some value) => simp only [maxAttempts]; omega

/-- A job that is run again has attempts left, so it has failed at most three times before. -/
theorem shouldRetry_attempts {jobType error : String} {attemptsMade : ℕ} {limit : Limit}
    (h : shouldRetry jobType error attemptsMade limit = true) : attemptsMade ≤ 3 := by
  simp only [shouldRetry, Bool.and_eq_true, decide_eq_true_eq] at h
  have hb := (maxAttempts_bounds limit).2
  omega

theorem shouldRetry_type {jobType error : String} {attemptsMade : ℕ} {limit : Limit}
    (h : shouldRetry jobType error attemptsMade limit = true) : jobType ∈ retryableTypes := by
  simp only [shouldRetry, Bool.and_eq_true, retryableType, List.contains_iff_mem] at h
  exact h.1.1

end Jobs.RetryPolicy
