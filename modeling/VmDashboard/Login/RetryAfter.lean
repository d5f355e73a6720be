import Mathlib.Data.List.GetD
import VmDashboard.AgentAuth.Authenticate
import VmDashboard.AgentAuth.Enroll
import VmDashboard.Machine.Throttle
import VmDashboard.Python.Case

/-!
# What `Retry-After` promises (`services/login_guard.py`, `services/agent_guard.py`)

A refused caller that waits as long as it was told is let in, unless rows that outlast the one the wait
comes from still fill a budget. The agent guards wait for their oldest row only, and a scope does not
look at the other ones.
-/

namespace Throttles
open Python (Instant)
open Machine (Budget Throttle)
open LoginGuard (LoginAttempt cutoff representable)
open AgentAuth (AgentNonce EnrollAttempt EnrollConfig)

/-- A check lets the caller in after its `retry_after` seconds, whenever it can compute its window. -/
def Honest {ρ : Type} (check : Instant → Option ρ) (seconds : ρ → Option ℤ)
    (computes : Instant → Prop) (now : Instant) : Prop :=
  ∀ refusal ∈ check now, ∀ r ∈ seconds refusal, ∀ later : Instant,
    (now : ℤ) + r * 1000000 ≤ later → computes later → check later = none

section
variable {α ρ : Type} {T : Throttle α} {rows : List α} {check : Instant → Option ρ}
  {seconds : ρ → Option ℤ} {computes : Instant → Prop} {now : Instant}

/-- A check that refuses when the throttle does, for the seconds until the decisive stamp has left. -/
theorem honest_iff (decisive : Instant → Budget α → ℤ) (hnow : computes now)
    (hcases : ∀ t, computes t → (T.refusing rows t = none ∧ check t = none) ∨
      ∃ budget refusal, T.refusing rows t = some budget ∧ check t = some refusal ∧
        seconds refusal = some (T.wait t (decisive t budget)) ∧
        (t : ℤ) ≤ decisive t budget + T.window)
    (hcomputes : ∀ row ∈ rows, ∀ t : Instant, (t : ℤ) = T.stamp row + T.window → computes t) :
    Honest check seconds computes now ↔
      ∀ budget ∈ T.refusing rows now, T.Settles rows now (decisive now budget) := by
  have hnone (t : Instant) (ht : computes t) : check t = none ↔ T.refusing rows t = none := by
    rcases hcases t ht with ⟨hthrottle, hcheck⟩ | ⟨budget, refusal, hthrottle, hcheck, -⟩
    · exact iff_of_true hcheck hthrottle
    · rw [hcheck, hthrottle]
      exact iff_of_false (Option.some_ne_none _) (Option.some_ne_none _)
  rcases hcases now hnow with ⟨hthrottle, hcheck⟩ | ⟨budget, refusal, hthrottle, hcheck, hwait, hstamp⟩
  · refine iff_of_true (fun refusal hrefusal => ?_) fun budget hbudget => ?_
    · rw [hcheck] at hrefusal
      cases hrefusal
    · rw [hthrottle] at hbudget
      cases hbudget
  · constructor
    · intro hhonest other hother
      obtain rfl := Option.some.inj (hthrottle.symm.trans hother)
      refine Throttle.settles_of_refusing hstamp fun row hrow hlater => ?_
      have hpos : 1 ≤ T.wait now (decisive now budget) := le_max_left _ _
      obtain ⟨later, hleaves⟩ : ∃ later : ℕ, (later : ℤ) = T.stamp row + T.window :=
        ⟨(T.stamp row + T.window).toNat, by omega⟩
      rw [← hleaves] at hlater ⊢
      have hcan := hcomputes row hrow later hleaves
      exact (hnone later hcan).mp (hhonest refusal hcheck _ hwait later hlater hcan)
    · intro hsettles other hother r hr later hlater hcan
      obtain rfl := Option.some.inj (hcheck.symm.trans hother)
      obtain rfl := Option.some.inj (hwait.symm.trans hr)
      exact (hnone later hcan).mpr
        (Throttle.refusing_of_settles hstamp (hsettles budget hthrottle) hlater)

/-- A scope that is not switched off refuses when its budget is full. -/
theorem scope_cases {α ρ : Type} (off : Prop) [Decidable off] (budget : Budget α) (refusal : ρ)
    (scanned : List α) :
    ((if off then [] else [budget]).find? (fun budget => budget.Full scanned) = none ∧
      (if off then none else if budget.Full scanned then some refusal else none) = none) ∨
    ((if off then [] else [budget]).find? (fun budget => budget.Full scanned) = some budget ∧
      (if off then none else if budget.Full scanned then some refusal else none) = some refusal) := by
  by_cases hoff : off
  · rw [if_pos hoff, if_pos hoff]
    exact .inl ⟨rfl, rfl⟩
  · rw [if_neg hoff, if_neg hoff]
    by_cases hfull : budget.Full scanned
    · exact .inr ⟨List.find?_cons_of_pos (decide_eq_true hfull), if_pos hfull⟩
    · exact .inl ⟨List.find?_cons_of_neg fun h => hfull (of_decide_eq_true h), if_neg hfull⟩

theorem refuse_or {off full : Prop} [Decidable off] [Decidable full] [Decidable (¬off ∧ full)] {ρ : Type}
    (refusal : ρ) (rest : Option ρ) :
    (if ¬off ∧ full then some refusal else rest) =
      (if off then none else if full then some refusal else none).or rest := by
  by_cases hoff : off
  · rw [if_neg fun h => h.1 hoff, if_pos hoff, Option.none_or]
  · by_cases hfull : full
    · rw [if_pos ⟨hoff, hfull⟩, if_neg hoff, if_pos hfull, Option.some_or]
    · rw [if_neg fun h => hfull h.2, if_neg hoff, if_neg hfull, Option.none_or]

/-- A refusal without seconds promises nothing. -/
theorem honest_of_raised (h : ∀ refusal ∈ check now, seconds refusal = none) :
    Honest check seconds computes now := by
  intro refusal hrefusal r hr
  rw [h refusal hrefusal] at hr
  cases hr

end

theorem cutoff_eq_some {now : Instant} {minutes oldest : ℤ} (h : cutoff now minutes = some oldest) :
    oldest = now - LoginGuard.timedelta minutes := by
  unfold cutoff at h
  dsimp only at h
  split at h
  · exact (Option.some.inj h).symm
  · cases h

theorem cutoff_leaving {stamp t : Instant} {minutes : ℤ} (hstamp : representable stamp)
    (h : (t : ℤ) = stamp + LoginGuard.timedelta minutes) : (cutoff t minutes).isSome := by
  unfold cutoff
  rw [h, add_sub_cancel_right, if_pos hstamp]
  rfl

/-! ### Logins -/

section
variable (lower : String → String) (config : LoginGuard.Config) (username ip : String) (ipOnly : Bool)

def userBudget : Budget LoginAttempt :=
  ⟨fun row => row.username = LoginGuard.normalizeUsername lower username, config.maxAttempts⟩

def ipBudget : Budget LoginAttempt := ⟨fun row => row.ip = ip, config.maxAttemptsPerIp⟩

def loginThrottle : Throttle LoginAttempt where
  stamp row := row.attemptedAt
  window := LoginGuard.timedelta config.windowMinutes
  scan rows := ((rows.filter fun row =>
      row.username = LoginGuard.normalizeUsername lower username ∨ row.ip = ip).insertionSort
    fun a b => a.attemptedAt ≤ b.attemptedAt).take LoginGuard.maxRowsScanned
  scan_nil := rfl
  budgets :=
    if ¬config.enabled then []
    else (if ipOnly then [] else [userBudget lower config username]) ++
      (if ip = "" then [] else [ipBudget config ip])

/-- The stamp whose expiry brings the budget below its cap: the cap-th from the newest. -/
def pivot (budget : Budget LoginAttempt) (scanned : List LoginAttempt) : Instant :=
  let stamps := (scanned.filter budget.member).map LoginAttempt.attemptedAt
  stamps.getD (stamps.length - budget.cap.toNat) 0

def loginSeconds : LoginGuard.Refusal → Option ℤ
  | .loginThrottled r _ => some r
  | .overflow => none

/-- The rows a login's check looks at. -/
def loginScan (rows : List LoginAttempt) (now : Instant) : List LoginAttempt :=
  (loginThrottle lower config username ip ipOnly).scan
    ((loginThrottle lower config username ip ipOnly).recent rows now)

end

section
variable {lower : String → String} {config : LoginGuard.Config} {username ip : String} {ipOnly : Bool}
  {rows : List LoginAttempt} {now : Instant}

theorem overCap_eq (budget : Budget LoginAttempt) (scanned : List LoginAttempt)
    (scope : LoginGuard.Scope) :
    LoginGuard.overCap config ((scanned.filter budget.member).map LoginAttempt.attemptedAt) budget.cap
      scope now = if budget.Full scanned then
        some (.loginThrottled ((loginThrottle lower config username ip ipOnly).wait now
          (pivot budget scanned)) scope) else none := by
  unfold LoginGuard.overCap Budget.Full
  rw [List.length_map, ← List.countP_eq_length_filter]
  rfl

theorem loginScan_eq {oldest : ℤ} (h : cutoff now config.windowMinutes = some oldest) :
    loginScan lower config username ip ipOnly rows now =
      (LoginGuard.matching rows (LoginGuard.normalizeUsername lower username) ip oldest).take
        LoginGuard.maxRowsScanned := by
  have hfilter : (rows.filter fun row => (now : ℤ) ≤ row.attemptedAt +
      LoginGuard.timedelta config.windowMinutes).filter (fun row =>
        row.username = LoginGuard.normalizeUsername lower username ∨ row.ip = ip) =
      rows.filter fun row => oldest ≤ row.attemptedAt ∧
        (row.username = LoginGuard.normalizeUsername lower username ∨ row.ip = ip) := by
    rw [List.filter_filter]
    refine List.filter_congr fun row _ => ?_
    rw [← Bool.decide_and, decide_eq_decide, cutoff_eq_some h, and_comm, sub_le_iff_le_add]
  unfold loginScan LoginGuard.matching
  rw [← hfilter]
  rfl

variable (lower config username ip ipOnly rows now) in
/-- The check refuses for the budget that the throttle refuses for. -/
theorem check_cases {oldest : ℤ} (h : cutoff now config.windowMinutes = some oldest) :
    ((loginThrottle lower config username ip ipOnly).refusing rows now = none ∧
      LoginGuard.check lower config rows username ip ipOnly now = none) ∨
    ∃ budget scope, (loginThrottle lower config username ip ipOnly).refusing rows now = some budget ∧
      LoginGuard.check lower config rows username ip ipOnly now = some (.loginThrottled
        ((loginThrottle lower config username ip ipOnly).wait now
          (pivot budget (loginScan lower config username ip ipOnly rows now))) scope) := by
  have hcheck : LoginGuard.check lower config rows username ip ipOnly now =
      if ¬config.enabled then none
      else (if ipOnly then none else
          if (userBudget lower config username).Full
              (loginScan lower config username ip ipOnly rows now) then
            some (.loginThrottled ((loginThrottle lower config username ip ipOnly).wait now
              (pivot (userBudget lower config username)
                (loginScan lower config username ip ipOnly rows now))) .user) else none).or
        (if ip = "" then none else
          if (ipBudget config ip).Full (loginScan lower config username ip ipOnly rows now) then
            some (.loginThrottled ((loginThrottle lower config username ip ipOnly).wait now
              (pivot (ipBudget config ip) (loginScan lower config username ip ipOnly rows now))) .ip)
          else none) := by
    unfold LoginGuard.check
    rw [h]
    dsimp only
    rw [← loginScan_eq h, ← overCap_eq, ← overCap_eq]
    rfl
  have hrefusing : (loginThrottle lower config username ip ipOnly).refusing rows now =
      (if ¬config.enabled then []
        else (if ipOnly then [] else [userBudget lower config username]) ++
          (if ip = "" then [] else [ipBudget config ip])).find? fun budget =>
            budget.Full (loginScan lower config username ip ipOnly rows now) := rfl
  rw [hcheck, hrefusing]
  generalize loginScan lower config username ip ipOnly rows now = scanned
  by_cases henabled : config.enabled
  · rw [if_neg (not_not.mpr henabled), if_neg (not_not.mpr henabled), List.find?_append]
    rcases scope_cases (ipOnly = true) (userBudget lower config username) (LoginGuard.Refusal.loginThrottled
        ((loginThrottle lower config username ip ipOnly).wait now
          (pivot (userBudget lower config username) scanned)) .user) scanned with
      ⟨hroom, hpass⟩ | ⟨hfull, hrefuse⟩
    · rw [hroom, hpass, Option.none_or, Option.none_or]
      rcases scope_cases (ip = "") (ipBudget config ip) (LoginGuard.Refusal.loginThrottled
          ((loginThrottle lower config username ip ipOnly).wait now
            (pivot (ipBudget config ip) scanned)) .ip) scanned with
        hboth | ⟨hfull, hrefuse⟩
      · exact .inl hboth
      · exact .inr ⟨ipBudget config ip, .ip, hfull, hrefuse⟩
    · rw [hfull, hrefuse]
      exact .inr ⟨userBudget lower config username, .user, rfl, rfl⟩
  · rw [if_pos henabled, if_pos henabled]
    exact .inl ⟨rfl, rfl⟩

theorem mem_loginScan {row : LoginAttempt}
    (h : row ∈ loginScan lower config username ip ipOnly rows now) :
    row ∈ (loginThrottle lower config username ip ipOnly).recent rows now := by
  have hsorted := List.mem_of_mem_take h
  rw [List.mem_insertionSort] at hsorted
  exact (List.mem_filter.mp hsorted).1

/-- The decisive stamp is in the window. -/
theorem pivot_recent {budget : Budget LoginAttempt}
    (h : budget.Full (loginScan lower config username ip ipOnly rows now)) :
    (now : ℤ) ≤ pivot budget (loginScan lower config username ip ipOnly rows now) +
      (loginThrottle lower config username ip ipOnly).window := by
  obtain ⟨hpos, hcap⟩ := h
  rw [List.countP_eq_length_filter] at hcap
  have hmem : pivot budget (loginScan lower config username ip ipOnly rows now) ∈
      ((loginScan lower config username ip ipOnly rows now).filter budget.member).map
        LoginAttempt.attemptedAt := by
    unfold pivot
    rw [List.getD_eq_getElem _ _ (by rw [List.length_map]; omega)]
    exact List.getElem_mem _
  obtain ⟨row, hrow, hstamp⟩ := List.mem_map.mp hmem
  have hstays := (Throttle.mem_recent.mp (mem_loginScan (List.mem_filter.mp hrow).1)).2
  rw [← hstamp]
  exact hstays

variable (lower config username ip ipOnly rows now)

/-- No row that outlasts the decisive one of a refusal starts a scan that fills a budget. -/
def LoginSettles : Prop :=
  (cutoff now config.windowMinutes).isSome →
    ∀ budget ∈ (loginThrottle lower config username ip ipOnly).refusing rows now,
      (loginThrottle lower config username ip ipOnly).Settles rows now
        (pivot budget (loginScan lower config username ip ipOnly rows now))

instance : Decidable (LoginSettles lower config username ip ipOnly rows now) :=
  inferInstanceAs (Decidable (_ → ∀ budget ∈ _, Throttle.Settles _ _ _ _))

theorem login_honest_iff (hrows : ∀ row ∈ rows, representable row.attemptedAt) :
    Honest (LoginGuard.check lower config rows username ip ipOnly) loginSeconds
        (fun t => (cutoff t config.windowMinutes).isSome) now ↔
      LoginSettles lower config username ip ipOnly rows now := by
  unfold LoginSettles
  cases hcut : cutoff now config.windowMinutes with
  | none =>
    refine iff_of_true (honest_of_raised fun refusal hrefusal => ?_) fun h => by cases h
    unfold LoginGuard.check at hrefusal
    rw [hcut] at hrefusal
    split at hrefusal
    · cases hrefusal
    · rw [← Option.some.inj hrefusal]
      rfl
  | some oldest =>
    rw [forall_prop_of_true Option.isSome_some]
    refine honest_iff (fun t budget => pivot budget (loginScan lower config username ip ipOnly rows t))
      (Option.isSome_iff_exists.mpr ⟨oldest, hcut⟩) (fun t ht => ?_)
      fun row hrow t ht => cutoff_leaving (hrows row hrow) ht
    obtain ⟨oldest', hcut'⟩ := Option.isSome_iff_exists.mp ht
    rcases check_cases lower config username ip ipOnly rows t hcut' with
      hnone | ⟨budget, scope, hsome, hcheck⟩
    · exact .inl hnone
    · have hfull := List.find?_some hsome
      exact .inr ⟨budget, _, hsome, hcheck, rfl, pivot_recent (of_decide_eq_true hfull)⟩

end

/-! ### Requests of an agent -/

section
variable (config : AgentAuth.Config) (agentId : String) (slots : ℤ)

def requestBudget : Budget AgentNonce :=
  ⟨fun _ => true, min (config.maxRequests * max 1 slots) AgentAuth.maxRowsScanned⟩

def requestThrottle : Throttle AgentNonce where
  stamp row := row.seenAt
  window := AgentAuth.requestWindow
  scan rows := rows.filter fun row => row.agentId = agentId
  scan_nil := rfl
  budgets :=
    if ¬config.enabled ∨ agentId = "" ∨ config.maxRequests ≤ 0 then [] else [requestBudget config slots]

def oldestNonce (scanned : List AgentNonce) (now : Instant) : Instant :=
  (scanned.map AgentNonce.seenAt).min?.getD now

def requestSeconds : AgentAuth.Refusal → Option ℤ
  | .agentThrottled r => some r
  | _ => none

/-- The rows of the agent that are in the window. -/
def requestScan (db : AgentAuth.Db) (now : Instant) : List AgentNonce :=
  (requestThrottle config agentId slots).scan
    ((requestThrottle config agentId slots).recent db.nonces.rows now)

end

section
variable {config : AgentAuth.Config} {agentId : String} {slots : ℤ} {db : AgentAuth.Db} {now : Instant}

variable (slots) in
theorem requestScan_eq : requestScan config agentId slots db now =
    db.nonces.rows.filter fun row =>
      row.agentId = agentId ∧ now ≤ row.seenAt + AgentAuth.requestWindow := by
  refine (List.filter_filter ..).trans (List.filter_congr fun row _ => ?_)
  rw [← Bool.decide_and, decide_eq_decide, and_congr_right_iff]
  intro _
  dsimp only [requestThrottle]
  norm_cast

theorem oldestNonce_mem (now : Instant) {scanned : List AgentNonce} (h : scanned ≠ []) :
    ∃ row ∈ scanned, row.seenAt = oldestNonce scanned now := by
  unfold oldestNonce
  cases hmin : (scanned.map AgentNonce.seenAt).min? with
  | none => exact absurd (List.map_eq_nil_iff.mp (List.min?_eq_none_iff.mp hmin)) h
  | some oldest => exact List.mem_map.mp (List.min?_mem hmin)

theorem oldestNonce_recent (h : requestScan config agentId slots db now ≠ []) :
    (now : ℤ) ≤ oldestNonce (requestScan config agentId slots db now) now +
      (requestThrottle config agentId slots).window := by
  obtain ⟨row, hrow, holdest⟩ := oldestNonce_mem now h
  rw [← holdest]
  exact (Throttle.mem_recent.mp (List.mem_filter.mp hrow).1).2

variable (config agentId slots db now) in
theorem checkRequest_cases :
    ((requestThrottle config agentId slots).refusing db.nonces.rows now = none ∧
      AgentAuth.checkRequest config db agentId slots now = none) ∨
    ∃ r : ℕ, (requestThrottle config agentId slots).refusing db.nonces.rows now =
        some (requestBudget config slots) ∧
      requestScan config agentId slots db now ≠ [] ∧
      AgentAuth.checkRequest config db agentId slots now = some (.agentThrottled r) ∧
      (r : ℤ) = (requestThrottle config agentId slots).wait now
        (oldestNonce (requestScan config agentId slots db now) now) := by
  have hrefusing : (requestThrottle config agentId slots).refusing db.nonces.rows now =
      (if ¬config.enabled ∨ agentId = "" ∨ config.maxRequests ≤ 0 then []
        else [requestBudget config slots]).find? fun budget =>
          budget.Full (requestScan config agentId slots db now) := rfl
  unfold AgentAuth.checkRequest
  rw [hrefusing]
  by_cases hoff : ¬config.enabled ∨ agentId = "" ∨ config.maxRequests ≤ 0
  · exact .inl ⟨by rw [if_pos hoff]; rfl, if_pos hoff⟩
  · rw [if_neg hoff, if_neg hoff, ← requestScan_eq slots]
    have hcap : 0 < min (config.maxRequests * max 1 slots) AgentAuth.maxRowsScanned :=
      lt_min (Int.mul_pos (by omega) (by omega)) (by decide)
    have hcount : (requestScan config agentId slots db now).countP (requestBudget config slots).member =
        ((requestScan config agentId slots db now).map AgentNonce.seenAt).length := by
      rw [List.length_map]
      exact congrFun List.countP_true _
    by_cases hfull : (requestBudget config slots).Full (requestScan config agentId slots db now)
    · have hne : requestScan config agentId slots db now ≠ [] := by
        intro hempty
        exact (requestBudget config slots).not_full_nil (hempty ▸ hfull)
      have hlength := hfull.2
      rw [hcount] at hlength
      refine .inr ⟨_, List.find?_cons_of_pos (decide_eq_true hfull), hne, if_pos hlength, ?_⟩
      have hrecent := oldestNonce_recent hne
      unfold Throttle.wait Throttle.secondsLeft AgentAuth.retryAfter Python.seconds
      dsimp only [requestThrottle, oldestNonce] at hrecent ⊢
      omega
    · have hshort : ¬min (config.maxRequests * max 1 slots) AgentAuth.maxRowsScanned ≤
          ((requestScan config agentId slots db now).map AgentNonce.seenAt).length := by
        rw [← hcount]
        exact fun hle => hfull ⟨hcap, hle⟩
      exact .inl ⟨List.find?_cons_of_neg (by simpa using hfull), if_neg hshort⟩

variable (config agentId slots db now)

def RequestSettles : Prop :=
  ∀ budget ∈ (requestThrottle config agentId slots).refusing db.nonces.rows now,
    (requestThrottle config agentId slots).Settles db.nonces.rows now
      (oldestNonce (requestScan config agentId slots db now) now)

instance : Decidable (RequestSettles config agentId slots db now) :=
  inferInstanceAs (Decidable (∀ budget ∈ _, Throttle.Settles _ _ _ _))

theorem request_honest_iff :
    Honest (AgentAuth.checkRequest config db agentId slots) requestSeconds (fun _ => True) now ↔
      RequestSettles config agentId slots db now := by
  refine honest_iff (fun t _ => oldestNonce (requestScan config agentId slots db t) t) trivial
    (fun t _ => ?_) fun _ _ _ _ => trivial
  rcases checkRequest_cases config agentId slots db t with hnone | ⟨r, hsome, hne, hcheck, hwait⟩
  · exact .inl hnone
  · exact .inr ⟨_, _, hsome, hcheck, congrArg some hwait, oldestNonce_recent hne⟩

end

/-! ### Enrolments -/

section
variable (config : EnrollConfig) (ip : String)

def peerBudget : Budget EnrollAttempt := ⟨fun row => row.ip = ip, config.maxPerIp⟩

def globalBudget : Budget EnrollAttempt := ⟨fun _ => true, config.maxGlobal⟩

def enrollThrottle : Throttle EnrollAttempt where
  stamp row := row.attemptedAt
  window := LoginGuard.timedelta config.windowMinutes
  scan rows := (rows.insertionSort fun a b => a.attemptedAt ≤ b.attemptedAt).take
    AgentAuth.maxEnrollRowsScanned
  scan_nil := rfl
  budgets :=
    if ¬config.enabled then []
    else (if ip = "" then [] else [peerBudget config ip]) ++ [globalBudget config]

def oldestFailure (budget : Budget EnrollAttempt) (scanned : List EnrollAttempt) : Instant :=
  ((scanned.filter budget.member).map EnrollAttempt.attemptedAt).headD 0

def enrollSeconds : AgentAuth.EnrollRefusal → Option ℤ
  | .agentThrottled r _ => some r
  | .overflow => none

/-- The rows an enrolment's check looks at. -/
def enrollScan (rows : List EnrollAttempt) (now : Instant) : List EnrollAttempt :=
  (enrollThrottle config ip).scan ((enrollThrottle config ip).recent rows now)

end

section
variable {config : EnrollConfig} {ip : String} {rows : List EnrollAttempt} {now : Instant}

variable (ip) in
theorem enrollScan_eq {oldest : ℤ} (h : cutoff now config.windowMinutes = some oldest) :
    enrollScan config ip rows now = AgentAuth.failures rows oldest := by
  have hfilter : (rows.filter fun row => (now : ℤ) ≤ row.attemptedAt +
      LoginGuard.timedelta config.windowMinutes) = rows.filter fun row => oldest ≤ row.attemptedAt := by
    refine List.filter_congr fun row _ => ?_
    rw [decide_eq_decide, cutoff_eq_some h, sub_le_iff_le_add]
  unfold AgentAuth.failures
  rw [← hfilter]
  rfl

theorem oldestFailure_recent {budget : Budget EnrollAttempt}
    (h : budget.Full (enrollScan config ip rows now)) :
    (now : ℤ) ≤ oldestFailure budget (enrollScan config ip rows now) +
      (enrollThrottle config ip).window := by
  obtain ⟨hpos, hcap⟩ := h
  unfold oldestFailure
  cases hcounted : (enrollScan config ip rows now).filter budget.member with
  | nil =>
    rw [List.countP_eq_length_filter, hcounted, List.length_nil] at hcap
    omega
  | cons row rest =>
    have hrow : row ∈ enrollScan config ip rows now :=
      List.mem_of_mem_filter (hcounted.symm ▸ List.mem_cons_self)
    have hsorted := List.mem_of_mem_take hrow
    rw [List.mem_insertionSort] at hsorted
    exact (Throttle.mem_recent.mp hsorted).2

variable (config ip rows now) in
theorem checkEnroll_cases {oldest : ℤ} (h : cutoff now config.windowMinutes = some oldest) :
    ((enrollThrottle config ip).refusing rows now = none ∧
      AgentAuth.checkEnroll config rows ip now = none) ∨
    ∃ budget scope, (enrollThrottle config ip).refusing rows now = some budget ∧
      AgentAuth.checkEnroll config rows ip now = some (.agentThrottled
        ((enrollThrottle config ip).wait now (oldestFailure budget (enrollScan config ip rows now)))
          scope) := by
  have hrefusing : (enrollThrottle config ip).refusing rows now =
      (if ¬config.enabled then []
        else (if ip = "" then [] else [peerBudget config ip]) ++ [globalBudget config]).find?
          fun budget => budget.Full (enrollScan config ip rows now) := rfl
  have hcheck : AgentAuth.checkEnroll config rows ip now =
      if ¬config.enabled then none
      else if enrollScan config ip rows now = [] then none
      else (if ip = "" then none else
          if (peerBudget config ip).Full (enrollScan config ip rows now) then
            some (.agentThrottled ((enrollThrottle config ip).wait now
              (oldestFailure (peerBudget config ip) (enrollScan config ip rows now))) .ip)
          else none).or
        (if (globalBudget config).Full (enrollScan config ip rows now) then
          some (.agentThrottled ((enrollThrottle config ip).wait now
            (oldestFailure (globalBudget config) (enrollScan config ip rows now))) .global)
        else none) := by
    have hall (scanned : List EnrollAttempt) : scanned.filter (globalBudget config).member = scanned :=
      List.filter_true scanned
    unfold AgentAuth.checkEnroll Budget.Full
    rw [h]
    dsimp only
    rw [← enrollScan_eq ip h, refuse_or]
    simp only [List.length_map, List.countP_eq_length_filter, hall, oldestFailure]
    rfl
  rw [hcheck, hrefusing]
  generalize enrollScan config ip rows now = scanned
  by_cases henabled : config.enabled
  · rw [if_neg (not_not.mpr henabled), if_neg (not_not.mpr henabled)]
    by_cases hempty : scanned = []
    · refine .inl ⟨List.find?_eq_none.mpr fun budget _ => ?_, if_pos hempty⟩
      rw [hempty, decide_eq_true_eq]
      exact budget.not_full_nil
    · rw [if_neg hempty, List.find?_append]
      rcases scope_cases (ip = "") (peerBudget config ip) (AgentAuth.EnrollRefusal.agentThrottled
          ((enrollThrottle config ip).wait now (oldestFailure (peerBudget config ip) scanned))
          .ip) scanned with ⟨hroom, hpass⟩ | ⟨hfull, hrefuse⟩
      · rw [hroom, hpass, Option.none_or, Option.none_or]
        have hglobal := scope_cases False (globalBudget config) (AgentAuth.EnrollRefusal.agentThrottled
          ((enrollThrottle config ip).wait now (oldestFailure (globalBudget config) scanned))
          .global) scanned
        rw [if_neg not_false, if_neg not_false] at hglobal
        rcases hglobal with hboth | ⟨hfull, hrefuse⟩
        · exact .inl hboth
        · exact .inr ⟨globalBudget config, .global, hfull, hrefuse⟩
      · rw [hfull, hrefuse]
        exact .inr ⟨peerBudget config ip, .ip, rfl, rfl⟩
  · rw [if_pos henabled, if_pos henabled]
    exact .inl ⟨rfl, rfl⟩

variable (config ip rows now)

def EnrollSettles : Prop :=
  (cutoff now config.windowMinutes).isSome → ∀ budget ∈ (enrollThrottle config ip).refusing rows now,
    (enrollThrottle config ip).Settles rows now (oldestFailure budget (enrollScan config ip rows now))

instance : Decidable (EnrollSettles config ip rows now) :=
  inferInstanceAs (Decidable (_ → ∀ budget ∈ _, Throttle.Settles _ _ _ _))

theorem enroll_honest_iff (hrows : ∀ row ∈ rows, representable row.attemptedAt) :
    Honest (AgentAuth.checkEnroll config rows ip) enrollSeconds
        (fun t => (cutoff t config.windowMinutes).isSome) now ↔ EnrollSettles config ip rows now := by
  unfold EnrollSettles
  cases hcut : cutoff now config.windowMinutes with
  | none =>
    refine iff_of_true (honest_of_raised fun refusal hrefusal => ?_) fun h => by cases h
    unfold AgentAuth.checkEnroll at hrefusal
    rw [hcut] at hrefusal
    split at hrefusal
    · cases hrefusal
    · rw [← Option.some.inj hrefusal]
      rfl
  | some oldest =>
    rw [forall_prop_of_true Option.isSome_some]
    refine honest_iff (fun t budget => oldestFailure budget (enrollScan config ip rows t))
      (Option.isSome_iff_exists.mpr ⟨oldest, hcut⟩) (fun t ht => ?_)
      fun row hrow t ht => cutoff_leaving (hrows row hrow) ht
    obtain ⟨oldest', hcut'⟩ := Option.isSome_iff_exists.mp ht
    rcases checkEnroll_cases config ip rows t hcut' with hnone | ⟨budget, scope, hsome, hcheck⟩
    · exact .inl hnone
    · have hfull := List.find?_some hsome
      exact .inr ⟨budget, _, hsome, hcheck, rfl, oldestFailure_recent (of_decide_eq_true hfull)⟩

end

/-! ### The three checks -/

/-- For every rows, settings and time. Stored times are ones that `datetime` has. -/
theorem retryAfter_honest_iff (lower : String → String) (login : LoginGuard.Config)
    (username ip : String) (ipOnly : Bool) (attempts : List LoginAttempt)
    (agent : AgentAuth.Config) (agentId : String) (slots : ℤ) (db : AgentAuth.Db)
    (enroll : EnrollConfig) (peer : String) (failures : List EnrollAttempt) (now : Instant)
    (hattempts : ∀ row ∈ attempts, representable row.attemptedAt)
    (hfailures : ∀ row ∈ failures, representable row.attemptedAt) :
    (Honest (LoginGuard.check lower login attempts username ip ipOnly) loginSeconds
        (fun t => (cutoff t login.windowMinutes).isSome) now ↔
      LoginSettles lower login username ip ipOnly attempts now) ∧
    (Honest (AgentAuth.checkRequest agent db agentId slots) requestSeconds (fun _ => True) now ↔
      RequestSettles agent agentId slots db now) ∧
    (Honest (AgentAuth.checkEnroll enroll failures peer) enrollSeconds
        (fun t => (cutoff t enroll.windowMinutes).isSome) now ↔
      EnrollSettles enroll peer failures now) :=
  ⟨login_honest_iff lower login username ip ipOnly attempts now hattempts,
    request_honest_iff agent agentId slots db now, enroll_honest_iff enroll peer failures now hfailures⟩

/-- Two requests of an agent that reported two slots. -/
def reportedTwo : AgentAuth.Db :=
  ⟨Machine.Table.empty, ⟨[⟨"site", "a", 0⟩, ⟨"site", "b", 59000000⟩], by decide⟩⟩

open Python (seconds) in
/-- Each check refuses under a cap of 1. The login and the enrolment wait for their only row, the
agent's request for the older one of two. -/
theorem retryAfter_honest_capped :
    let login : LoginGuard.Config := { maxAttempts := 1 }
    let attempts : List LoginAttempt := [⟨0, "ann", "10.0.0.1", seconds 5⟩]
    let enroll : EnrollConfig := { maxPerIp := 1 }
    let failures : List EnrollAttempt := [⟨"10.0.0.9", seconds 7⟩]
    let now := seconds 59
    LoginGuard.check Python.lower login attempts "Ann" "10.0.0.1" false now =
        some (.loginThrottled 847 .user) ∧
      Honest (LoginGuard.check Python.lower login attempts "Ann" "10.0.0.1" false) loginSeconds
        (fun t => (cutoff t 15).isSome) now ∧
    AgentAuth.checkRequest ⟨true, 1⟩ reportedTwo "site" 1 now = some (.agentThrottled 2) ∧
      ¬Honest (AgentAuth.checkRequest ⟨true, 1⟩ reportedTwo "site" 1) requestSeconds
        (fun _ => True) now ∧
    AgentAuth.checkEnroll enroll failures "10.0.0.9" now = some (.agentThrottled 849 .ip) ∧
      Honest (AgentAuth.checkEnroll enroll failures "10.0.0.9") enrollSeconds
        (fun t => (cutoff t 15).isSome) now := by
  intro login attempts enroll failures now
  obtain ⟨hlogin, hrequest, henroll⟩ := retryAfter_honest_iff Python.lower login "Ann" "10.0.0.1" false
    attempts ⟨true, 1⟩ "site" 1 reportedTwo enroll "10.0.0.9" failures now (by decide) (by decide)
  refine ⟨by decide +kernel, hlogin.mpr ?_, by decide +kernel, hrequest.not.mpr ?_, by decide +kernel,
    henroll.mpr ?_⟩
  · decide +kernel
  · decide +kernel
  · decide +kernel

/-- It reports one slot now: its second request outlasts the first. -/
theorem retryAfter_early : ¬∀ (agent : AgentAuth.Config) (agentId : String) (slots : ℤ)
    (db : AgentAuth.Db) (now : Instant),
    Honest (AgentAuth.checkRequest agent db agentId slots) requestSeconds (fun _ => True) now := by
  intro h
  have hrefused : AgentAuth.checkRequest ⟨true, 1⟩ reportedTwo "site" 1 59000000 =
      some (.agentThrottled 2) := by decide +kernel
  have hlater := h ⟨true, 1⟩ "site" 1 reportedTwo 59000000 _ hrefused 2 rfl 61000000 (by decide) trivial
  have hagain : AgentAuth.checkRequest ⟨true, 1⟩ reportedTwo "site" 1 61000000 ≠ none := by
    decide +kernel
  exact hagain hlater

end Throttles
