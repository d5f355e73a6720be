import VmDashboard.Workload.Credentials

/-!
# A failed mint damages nothing

Whatever the calls are and however their generates end, a stored credential is replaced by a newly
issued one only, and no generate is attempted inside the backoff of the failures before it.
-/

namespace Workload
open Machine (Store)
open Python (Instant seconds)

/-! ### The failures of a row -/

/-- The ends of the failures in a row after an entry, the latest first. -/
def Entry.after (key : Key) (streak : List Instant) : Entry → List Instant
  | .attempt k _ ended (.generated (.failed _)) => if k = key then ended :: streak else streak
  | .attempt k _ _ (.generated (.issued _)) => if k = key then [] else streak
  | .attempt .. => streak
  | .cleared cloud purpose => if Covers cloud purpose key then [] else streak

/-- The failures of a key since its last success or since its backoff was cleared. -/
def streak (key : Key) (log : List Entry) : List Instant := log.foldl (Entry.after key) []

theorem streak_append (key : Key) (log : List Entry) (entry : Entry) :
    streak key (log ++ [entry]) = entry.after key (streak key log) := by
  unfold streak
  rw [List.foldl_append]
  rfl

/-! ### What a call does to a row -/

/-- The columns of a row that its credential and its backoff are read from. -/
structure Standing where
  payload : Option String
  expiresAt : Option Instant
  failures : ℕ
  cooldownUntil : Option Instant

def Lease.standing (row : Lease) : Standing :=
  ⟨row.payload, row.expiresAt, row.consecutiveFailures, row.cooldownUntil⟩

def World.standing (w : World) (key : Key) : Standing := (w.rows.rowOr key .fresh).standing

/-- The standing after a generate that ended at `ended`. -/
def Ending.settle (vault : Vault) (ended : Instant) (standing : Standing) : Ending → Standing
  | .generated (.issued result) => ⟨some (vault.encrypt result.values), result.expiresAt, 0, none⟩
  | .generated (.failed _) =>
    { standing with
      failures := standing.failures + 1
      cooldownUntil := some (ended + seconds (cooldownSeconds (standing.failures + 1))) }
  | .unstored _ => standing
  | .died => standing

/-- Every standing is as it was. -/
def Quiet (s t : World) : Prop := t.log = s.log ∧ ∀ key, t.standing key = s.standing key

/-- One generate of `key` was attempted, outside its backoff. -/
structure Attempted (vault : Vault) (s t : World) (key : Key) (start ended : Instant)
    (ending : Ending) : Prop where
  log : t.log = s.log ++ [.attempt key start ended ending]
  free : ∀ cooldown ∈ (s.standing key).cooldownUntil, cooldown ≤ start
  settled : t.standing key = ending.settle vault ended (s.standing key)
  others : ∀ other, other ≠ key → t.standing other = s.standing other

/-- What a call that serves a credential can do. -/
def Served (vault : Vault) (s t : World) : Prop :=
  Quiet s t ∨ ∃ key start ended ending, Attempted vault s t key start ended ending

theorem Quiet.refl (s : World) : Quiet s s := ⟨rfl, fun _ => rfl⟩

theorem Quiet.trans {s t u : World} (hst : Quiet s t) (htu : Quiet t u) : Quiet s u :=
  ⟨htu.1.trans hst.1, fun key => (htu.2 key).trans (hst.2 key)⟩

theorem Served.of_quiet {vault : Vault} {s t u : World} (hst : Quiet s t) (h : Served vault t u) :
    Served vault s u := by
  rcases h with hquiet | ⟨key, start, ended, ending, h⟩
  · exact .inl (hst.trans hquiet)
  · refine .inr ⟨key, start, ended, ending, ?_, ?_, ?_, fun other hne => ?_⟩
    · rw [h.log, hst.1]
    · exact hst.2 key ▸ h.free
    · rw [h.settled, hst.2 key]
    · rw [h.others other hne, hst.2 other]

theorem quiet_wait (s : World) (n : ℕ) : Quiet s (s.wait n) := ⟨rfl, fun _ => rfl⟩

theorem standing_put (w : World) (key other : Key) (row : Lease) :
    World.standing { w with rows := w.rows.put key row } other =
      if other = key then row.standing else w.standing other := by
  unfold World.standing Store.rowOr Store.put
  by_cases h : other = key
  · rw [if_pos h, h]
    simp only [Function.update_self, Option.getD_some]
  · rw [if_neg h]
    simp only [Function.update_of_ne h]

theorem claim_standing {row claimed : Lease} {owner : String} {now : Instant} {force : Bool}
    (h : row.claim owner now force = some claimed) : claimed.standing = row.standing := by
  unfold Lease.claim at h
  split at h
  next =>
    obtain rfl := Option.some.inj h
    rfl
  next => cases h

/-- The claim leaves every standing, and whoever gets it is outside the backoff. -/
theorem claim_spec (w : World) (env : Env) (key : Key) (force : Bool) :
    Quiet w (w.claim env key force).1 ∧ (w.claim env key force).1.clock = w.clock ∧
      ((w.claim env key force).2.1 = true →
        ∀ cooldown ∈ (w.standing key).cooldownUntil, cooldown ≤ w.clock) := by
  unfold World.claim
  split
  · exact ⟨Quiet.refl w, rfl, nofun⟩
  · dsimp only
    cases hclaim : (w.rows.rowOr key .fresh).claim env.process w.clock force with
    | none => exact ⟨Quiet.refl w, rfl, nofun⟩
    | some claimed =>
      refine ⟨⟨rfl, fun other => ?_⟩, rfl, fun _ cooldown hcooldown => ?_⟩
      · rw [standing_put]
        split_ifs with hother
        · rw [claim_standing hclaim, hother]
          rfl
        · rfl
      · have hwanted := (Lease.claim_eq_some hclaim).1
        have hfree : (w.rows.rowOr key .fresh).inBackoff w.clock = false := by
          simpa using (Bool.and_eq_true_iff.mp hwanted).2
        have hcooldown : (w.rows.rowOr key .fresh).cooldownUntil = some cooldown := hcooldown
        unfold Lease.inBackoff at hfree
        rw [hcooldown] at hfree
        simpa using hfree

theorem quiet_serve {w : World} {vault : Vault} {env : Env} {key : Key} {snap : Option Lease}
    {served : World × Answer} (h : w.serve vault env key snap = some served) : Quiet w served.1 := by
  unfold World.serve at h
  split at h
  · cases h
  · split at h
    · obtain ⟨values, -, rfl⟩ := Option.map_eq_some_iff.mp h
      exact Quiet.refl w
    · cases h

theorem mint_attempted (vault : Vault) (env : Env) (key : Key) (name : String) {w : World}
    (hfree : ∀ cooldown ∈ (w.standing key).cooldownUntil, cooldown ≤ w.clock) :
    Attempted vault w (mint vault env key name w).1 key w.clock (w.clock + env.toEnd)
      env.ending := by
  unfold mint
  cases hending : env.ending with
  | died => exact ⟨rfl, hfree, rfl, fun _ _ => rfl⟩
  | unstored result => exact ⟨rfl, hfree, rfl, fun _ _ => rfl⟩
  | generated outcome =>
    cases outcome with
    | failed error =>
      refine ⟨rfl, hfree, (standing_put _ _ _ _).trans (if_pos rfl), fun other hne => ?_⟩
      exact (standing_put _ _ _ _).trans (if_neg hne)
    | issued result =>
      refine ⟨rfl, hfree, (standing_put _ _ _ _).trans (if_pos rfl), fun other hne => ?_⟩
      exact (standing_put _ _ _ _).trans (if_neg hne)

theorem served_serveOrMint (vault : Vault) (env : Env) (key : Key) (name : String) (force : Bool)
    (w : World) : Served vault w (serveOrMint vault env key name force w).1 := by
  refine Served.of_quiet (quiet_wait w env.toClaim) ?_
  obtain ⟨hquiet, hclock, hfree⟩ := claim_spec (w.wait env.toClaim) env key force
  unfold serveOrMint
  rcases hclaim : (w.wait env.toClaim).claim env key force with ⟨claimed, granted, snap⟩
  rw [hclaim] at hquiet hclock hfree
  refine Served.of_quiet hquiet ?_
  cases granted with
  | true =>
    refine .inr ⟨key, _, _, _, mint_attempted vault env key name fun cooldown hcooldown => ?_⟩
    rw [hquiet.2 key] at hcooldown
    exact hclock ▸ hfree rfl cooldown hcooldown
  | false =>
    dsimp only
    cases hserve : claimed.serve vault env key snap with
    | some served => exact .inl (quiet_serve hserve)
    | none =>
      dsimp only
      split_ifs
      · refine .inl ((quiet_wait claimed env.toEnd).trans ?_)
        unfold waitForWinner
        cases hwinner : (claimed.wait env.toEnd).serve vault env key
            ((claimed.wait env.toEnd).rows key) with
        | none => exact Quiet.refl _
        | some served => exact quiet_serve hwinner
      · exact .inl (Quiet.refl claimed)

theorem served_serveFresh (vault : Vault) (env : Env) (key : Key) (name : String) (pct : ℤ)
    (w : World) : Served vault w (serveFresh vault env key name pct w).1 := by
  unfold serveFresh
  split
  next served hserve => exact .inl (quiet_serve hserve)
  next => exact served_serveOrMint vault env key name true w

theorem served_credentials (vault : Vault) (env : Env) (cloud purpose : String) (pct : ℤ)
    (w : World) : Served vault w (credentials vault env cloud purpose pct w).1 := by
  unfold credentials
  dsimp only
  split
  · exact .inl (Quiet.refl w)
  · split
    · exact .inl (Quiet.refl w)
    · split
      · exact .inl (Quiet.refl w)
      · split
        · exact .inl (Quiet.refl w)
        · split
          · exact served_serveFresh vault env _ _ pct w
          · exact served_serveOrMint vault env _ _ false w

theorem served_refresh (vault : Vault) (env : Env) (cloud purpose : String) (force : Bool)
    (w : World) : Served vault w (refresh vault env cloud purpose force w).1 := by
  have hrenew := served_serveOrMint vault env (cloud, effectivePurpose env.config cloud purpose)
    (dynamicNameFor env.config cloud (effectivePurpose env.config cloud purpose)) true w
  unfold refresh
  dsimp only
  split
  · exact .inl (Quiet.refl w)
  · split
    · exact .inl (Quiet.refl w)
    · split
      · exact hrenew
      · split
        · exact .inl (Quiet.refl w)
        · split
          · split
            · exact .inl (Quiet.refl w)
            · split
              · exact hrenew
              · exact .inl (Quiet.refl w)
          · exact hrenew

/-! ### Whole runs -/

/-- The end of the backoff after the failures of a row. -/
def backoffEnd : List Instant → Option Instant
  | [] => none
  | last :: rest => some (last + seconds (cooldownSeconds (rest.length + 1)))

/-- A row counts its failures and keeps the end of their backoff. -/
structure Tracked (w : World) (key : Key) : Prop where
  failures : (w.standing key).failures = (streak key w.log).length
  cooldown : (w.standing key).cooldownUntil = backoffEnd (streak key w.log)

theorem tracked_start (key : Key) : Tracked .start key := ⟨rfl, rfl⟩

theorem Tracked.quiet {s t : World} {key : Key} (h : Tracked s key) (hquiet : Quiet s t) :
    Tracked t key := by
  obtain ⟨hlog, hstanding⟩ := hquiet
  refine ⟨?_, ?_⟩
  · rw [hstanding key, hlog, h.failures]
  · rw [hstanding key, hlog, h.cooldown]

theorem after_of_ne {key k : Key} (hne : k ≠ key) (streak : List Instant) (start ended : Instant)
    (ending : Ending) : Entry.after key streak (.attempt k start ended ending) = streak := by
  cases ending with
  | died => rfl
  | unstored result => rfl
  | generated outcome => cases outcome <;> exact if_neg hne

theorem Tracked.attempted {vault : Vault} {s t : World} {k key : Key} {start ended : Instant}
    {ending : Ending} (h : Tracked s key) (hattempt : Attempted vault s t k start ended ending) :
    Tracked t key := by
  have hstreak : streak key t.log =
      Entry.after key (streak key s.log) (.attempt k start ended ending) := by
    rw [hattempt.log, streak_append]
  by_cases hkey : k = key
  · subst hkey
    have hsettled := hattempt.settled
    cases ending with
    | died => exact ⟨hsettled ▸ hstreak ▸ h.failures, hsettled ▸ hstreak ▸ h.cooldown⟩
    | unstored result => exact ⟨hsettled ▸ hstreak ▸ h.failures, hsettled ▸ hstreak ▸ h.cooldown⟩
    | generated outcome =>
      cases outcome with
      | issued result =>
        have hnil : streak k t.log = [] := hstreak.trans (if_pos rfl)
        exact ⟨by rw [hsettled, hnil]; rfl, by rw [hsettled, hnil]; rfl⟩
      | failed error =>
        have hcons : streak k t.log = ended :: streak k s.log := hstreak.trans (if_pos rfl)
        refine ⟨?_, ?_⟩
        · rw [hsettled, hcons, List.length_cons, ← h.failures]
          rfl
        · rw [hsettled, hcons, backoffEnd, ← h.failures]
          rfl
  · rw [after_of_ne hkey] at hstreak
    have hother := hattempt.others key (Ne.symm hkey)
    exact ⟨hother ▸ hstreak ▸ h.failures, hother ▸ hstreak ▸ h.cooldown⟩

/-- A standing without its backoff. -/
def Standing.cleared (standing : Standing) : Standing :=
  if standing.cooldownUntil.isSome then { standing with failures := 0, cooldownUntil := none }
  else standing

theorem standing_lease_clearBackoff (row : Lease) :
    row.clearBackoff.standing = row.standing.cleared := by
  unfold Lease.clearBackoff Standing.cleared
  by_cases h : row.cooldownUntil.isSome = true
  · have hstanding : row.standing.cooldownUntil.isSome = true := h
    rw [if_pos h, if_pos hstanding]
    rfl
  · have hstanding : ¬row.standing.cooldownUntil.isSome = true := h
    rw [if_neg h, if_neg hstanding]

theorem standing_clearBackoff (cloud purpose : String) (w : World) (key : Key) :
    (clearBackoff cloud purpose w).standing key =
      if Covers cloud purpose key then (w.standing key).cleared else w.standing key := by
  have hrow : (clearBackoff cloud purpose w).rows key = (w.rows key).map fun row : Lease =>
      if Covers cloud purpose key then row.clearBackoff else row := rfl
  unfold World.standing Store.rowOr
  rw [hrow]
  cases w.rows key with
  | none => exact (ite_self _).symm
  | some row =>
    dsimp only [Option.map_some, Option.getD_some]
    split_ifs
    · exact standing_lease_clearBackoff row
    · rfl

/-- Clearing the backoff leaves the credential. -/
theorem clearBackoff_credential (cloud purpose : String) (w : World) (key : Key) :
    ((clearBackoff cloud purpose w).standing key).payload = (w.standing key).payload ∧
      ((clearBackoff cloud purpose w).standing key).expiresAt = (w.standing key).expiresAt := by
  rw [standing_clearBackoff]
  unfold Standing.cleared
  split_ifs <;> exact ⟨rfl, rfl⟩

theorem Tracked.cleared {w : World} {key : Key} (h : Tracked w key) (cloud purpose : String) :
    Tracked (clearBackoff cloud purpose w) key := by
  have hstreak : streak key (clearBackoff cloud purpose w).log =
      if Covers cloud purpose key then [] else streak key w.log := streak_append _ _ _
  have hstanding := standing_clearBackoff cloud purpose w key
  by_cases hcovers : Covers cloud purpose key
  · rw [if_pos hcovers] at hstreak hstanding
    unfold Standing.cleared at hstanding
    split_ifs at hstanding with hsome
    · exact ⟨by rw [hstanding, hstreak]; rfl, by rw [hstanding, hstreak]; rfl⟩
    · -- a row without a backoff has no failures
      have hnone := Option.not_isSome_iff_eq_none.mp hsome
      have hnil : streak key w.log = [] := by
        cases hlist : streak key w.log with
        | nil => rfl
        | cons last rest =>
          have hcooldown := h.cooldown
          rw [hnone, hlist] at hcooldown
          cases hcooldown
      exact ⟨by rw [hstanding, hstreak, h.failures, hnil], by rw [hstanding, hstreak, hnone]; rfl⟩
  · rw [if_neg hcovers] at hstreak hstanding
    exact ⟨by rw [hstanding, hstreak, h.failures], by rw [hstanding, hstreak, h.cooldown]⟩

/-- The three kinds of calls that can reach a generate, and the one that cannot. -/
theorem perform_cases (vault : Vault) (w : World) (call : Call) :
    Served vault w (w.perform vault call).1 ∨
      ∃ cloud purpose, call = .clearBackoff cloud purpose ∧
        (w.perform vault call).1 = clearBackoff cloud purpose w := by
  cases call with
  | credentials env cloud purpose pct =>
    exact .inl ((served_credentials vault env cloud purpose pct _).of_quiet (quiet_wait w env.toStart))
  | refresh env cloud purpose force =>
    exact .inl ((served_refresh vault env cloud purpose force _).of_quiet (quiet_wait w env.toStart))
  | serveFresh env key name pct =>
    exact .inl ((served_serveFresh vault env key name pct _).of_quiet (quiet_wait w env.toStart))
  | clearBackoff cloud purpose => exact .inr ⟨cloud, purpose, rfl, rfl⟩

theorem tracked_step {vault : Vault} {s t : World} {call : Call} (h : ∀ key, Tracked s key)
    (hstep : (credentialSystem vault).step s call = some t) : ∀ key, Tracked t key := by
  obtain rfl := Option.some.inj hstep
  intro key
  rcases perform_cases vault s call with (hquiet | ⟨k, start, ended, ending, hattempt⟩) |
    ⟨cloud, purpose, -, heq⟩
  · exact (h key).quiet hquiet
  · exact (h key).attempted hattempt
  · rw [heq]
    exact (h key).cleared cloud purpose

/-- A call replaces the credential of a row only by what its own generate has issued; it attempts a
generate only when the backoff after the last of `n` failures in a row is over; and clearing the
backoff replaces nothing. -/
structure Undamaged (vault : Vault) (s t : World) (call : Call) : Prop where
  kept : ∀ key, ((t.standing key).payload, (t.standing key).expiresAt) ≠
      ((s.standing key).payload, (s.standing key).expiresAt) →
    ∃ start ended result,
      t.log = s.log ++ [.attempt key start ended (.generated (.issued result))] ∧
      (t.standing key).payload = some (vault.encrypt result.values) ∧
      (t.standing key).expiresAt = result.expiresAt
  patient : ∀ key start ended ending, t.log = s.log ++ [.attempt key start ended ending] →
    ∀ last earlier, streak key s.log = last :: earlier →
      last + seconds (min (60 * 2 ^ earlier.length) 900) ≤ start
  cleared : ∀ cloud purpose, call = .clearBackoff cloud purpose → ∀ key,
    (t.standing key).payload = (s.standing key).payload ∧
      (t.standing key).expiresAt = (s.standing key).expiresAt

theorem cooldownSeconds_succ (n : ℕ) : cooldownSeconds (n + 1) = min (60 * 2 ^ n) 900 := by
  have hpos : 1 ≤ 2 ^ n := Nat.one_le_two_pow
  unfold cooldownSeconds failBaseSeconds cooldownMaxSeconds
  rw [Nat.add_sub_cancel, max_eq_right hpos, min_comm]

theorem append_inj {log : List Entry} {e f : Entry} (h : log ++ [e] = log ++ [f]) : e = f :=
  List.singleton_inj.mp (List.append_cancel_left h)

theorem undamaged_of_attempted {vault : Vault} {s t : World} {call : Call} {k : Key}
    {start ended : Instant} {ending : Ending} (h : Tracked s k)
    (hattempt : Attempted vault s t k start ended ending)
    (hcall : ∀ cloud purpose, call ≠ .clearBackoff cloud purpose) : Undamaged vault s t call where
  kept key hne := by
    by_cases hkey : key = k
    · subst hkey
      have hsettled := hattempt.settled
      cases ending with
      | died => exact absurd (by rw [hsettled]; rfl) hne
      | unstored result => exact absurd (by rw [hsettled]; rfl) hne
      | generated outcome =>
        cases outcome with
        | failed error => exact absurd (by rw [hsettled]; rfl) hne
        | issued result =>
          exact ⟨start, ended, result, hattempt.log, by rw [hsettled]; rfl, by rw [hsettled]; rfl⟩
    · exact absurd (by rw [hattempt.others key hkey]) hne
  patient key start' ended' ending' hlog last earlier hstreak := by
    obtain ⟨rfl, rfl, rfl, rfl⟩ := Entry.attempt.inj (append_inj (hattempt.log.symm.trans hlog))
    have hcooldown := h.cooldown
    rw [hstreak, backoffEnd, cooldownSeconds_succ] at hcooldown
    exact hattempt.free _ hcooldown
  cleared cloud purpose heq := absurd heq (hcall cloud purpose)

theorem undamaged_step {vault : Vault} {s t : World} {call : Call} (h : ∀ key, Tracked s key)
    (hstep : (credentialSystem vault).step s call = some t) : Undamaged vault s t call := by
  obtain rfl := Option.some.inj hstep
  by_cases hclear : ∃ cloud purpose, call = .clearBackoff cloud purpose
  · obtain ⟨cloud, purpose, rfl⟩ := hclear
    have hsame := clearBackoff_credential cloud purpose s
    refine ⟨fun key hne => absurd (Prod.ext (hsame key).1 (hsame key).2) hne, ?_, ?_⟩
    · intro key start ended ending hlog
      cases append_inj hlog
    · exact fun _ _ _ => hsame
  · have hcall : ∀ cloud purpose, call ≠ .clearBackoff cloud purpose :=
      fun cloud purpose heq => hclear ⟨cloud, purpose, heq⟩
    rcases perform_cases vault s call with (hquiet | ⟨k, start, ended, ending, hattempt⟩) |
      ⟨cloud, purpose, heq, -⟩
    · refine ⟨fun key hne => absurd (by rw [hquiet.2 key]) hne, ?_, ?_⟩
      · intro key start ended ending hlog
        exact absurd (hquiet.1.symm.trans hlog) (by simp)
      · exact fun cloud purpose heq => absurd heq (hcall cloud purpose)
    · exact undamaged_of_attempted (h k) hattempt hcall
    · exact absurd heq (hcall cloud purpose)

/-- Along every run of the calls, whatever their configurations, timings and generates. -/
theorem failed_mint_damages_nothing (vault : Vault) (calls : List Call) :
    (credentialSystem vault).Along
      (fun s call => ∀ t, (credentialSystem vault).step s call = some t → Undamaged vault s t call)
      .start calls :=
  (credentialSystem vault).along_step (G := fun _ _ => True)
    (fun _ _ _ h _ hstep => ⟨tracked_step h hstep, undamaged_step h hstep⟩) tracked_start
    ((credentialSystem vault).along_of_forall fun _ _ _ => trivial)

end Workload
