import VmDashboard.Machine.System
import VmDashboard.Machine.Table
import VmDashboard.Python.Clock
import VmDashboard.Python.Digest
import VmDashboard.Runners.Proof
import VmDashboard.Sealing.Delivery

/-!
# The credential of a run (`services/runner_credential.py`)

`issue`, `redeem`, `revoke_for_job` and `sweep` over the rows of `runner_credential_grants`. A redeem
claims its row, loads it, verifies and seals, and blanks the row; a commit stands between any two of
these, and other calls may come between them. `issued` keeps what became of every token.
-/

namespace Runners
open Machine (Table)
open Python (Dict Instant Json)

/-! ### The rows -/

def ttl : ℕ := Python.minutes 10

def runners : List String := ["ecs", "gcp"]

def ref : String := "ansible-vars"

structure Grant where
  tokenHash : String
  jobId : String
  runner : String
  valuesEnc : String
  expiresAt : Instant
  redeemedAt : Option Instant

abbrev Grants := Table Grant.tokenHash

def sweep (now : Instant) (grants : Grants) : Grants := grants.filter fun grant => now ≤ grant.expiresAt

def revokeForJob (jobId : String) (grants : Grants) : Grants :=
  grants.filter fun grant => grant.jobId ≠ jobId

/-- The row that `claimed == 1` is about: not redeemed yet, and not past its expiry. -/
def claim (hash : String) (now : Instant) (grants : Grants) : Option Grants :=
  match grants.lookup hash with
  | some grant =>
    if grant.redeemedAt = none ∧ now ≤ grant.expiresAt then
      some (grants.modify hash (fun grant => { grant with redeemedAt := some now }) fun _ => rfl)
    else none
  | none => none

/-- `config_service`'s encryption of a stored value. -/
structure Vault where
  encrypt : String → String
  decrypt : String → Except String String

/-! ### A redeem -/

/-- How far a redeem has come. The row is the one it loaded, and the last two keep what the services
were when the proof was verified. -/
inductive Phase where
  | begun
  | claimed
  | loaded (grant : Grant)
  | verified (grant : Grant) (envelope : Dict) (services : Services) (identity : String)
  | returned (envelope : Dict) (services : Services) (identity : String)
  | refused

/-- `late` is set when the token had been revoked or claimed before the redeem began. -/
structure Caller where
  id : ℕ
  token : String
  proof : Json
  replyKey : String
  begun : Instant
  late : Bool
  phase : Phase

/-- A token that was issued, whether its job was revoked since, and whether a redeem claimed it. -/
structure Issued where
  token : String
  jobId : String
  runner : String
  expiresAt : Instant
  revoked : Bool
  claimed : Bool

structure World where
  now : Instant
  grants : Grants
  issued : Table Issued.token
  callers : Table Caller.id

def World.start : World := ⟨0, .empty, .empty, .empty⟩

/-- `started` is the `now` of a call that commits later. -/
inductive Call where
  | issue (started : Instant) (token jobId runner : String) (values : Dict)
  | revokeForJob (jobId : String)
  | sweep (started : Instant)
  | redeem (id : ℕ) (token : String) (proof : Json) (replyKey : String)
  | claim (id : ℕ)
  | load (id : ℕ)
  | verify (id : ℕ) (services : Services) (draw : Sealing.Draw)
  | blank (id : ℕ)

section Calls
variable (P : Sealing.Primitives) (digest : String → String) (alnum : Char → Bool)
  (nfkc : List Char → List Char) (vault : Vault)

def grantOf (started : Instant) (token jobId runner : String) (values : Dict) : Grant where
  tokenHash := digest token
  jobId := jobId
  runner := runner
  valuesEnc := vault.encrypt (Json.obj values).dumps
  expiresAt := started + ttl
  redeemedAt := none

/-- What a redeem does between the load and the last commit. -/
def release (services : Services) (draw : Sealing.Draw) (caller : Caller) (grant : Grant) :
    Except String (Dict × String) := do
  (Sealing.checkReplyKey P caller.replyKey).mapError ("the reply key cannot be sealed to: " ++ ·)
  let identity ← verify digest alnum nfkc services grant.runner caller.proof caller.token
  let values ← vault.decrypt grant.valuesEnc
  let envelope ← Sealing.sealSecret P draw caller.replyKey values
    ⟨"runner:" ++ grant.runner, services.config.audience, grant.jobId, ref⟩
  return (envelope, identity)

def World.setPhase (w : World) (id : ℕ) (phase : Phase) : World :=
  { w with callers := w.callers.modify id (fun caller => { caller with phase }) fun _ => rfl }

def World.spent (w : World) (token : String) : Bool :=
  (w.issued.lookup token).any fun issued => issued.revoked || issued.claimed

def revokeIssued (jobId : String) (issued : Issued) : Issued :=
  if issued.jobId = jobId then { issued with revoked := true } else issued

theorem revokeIssued_token (jobId : String) (issued : Issued) :
    (revokeIssued jobId issued).token = issued.token := by
  unfold revokeIssued
  split <;> rfl

/-- A token is drawn afresh. A row that is gone when it is blanked raises, unless it was blank. -/
def World.perform (w : World) : Call → Option World
  | .issue started token jobId runner values =>
    if w.now < started then none
    else if runner ∉ runners then some w
    else
      (w.issued.insert ⟨token, jobId, runner, started + ttl, false, false⟩).bind fun issued =>
        ((sweep started w.grants).insert
          (grantOf digest vault started token jobId runner values)).map fun grants =>
            { w with grants, issued }
  | .revokeForJob jobId =>
    some { w with
      grants := revokeForJob jobId w.grants
      issued := w.issued.map (revokeIssued jobId) (revokeIssued_token jobId) }
  | .sweep started =>
    if w.now < started then none else some { w with grants := sweep started w.grants }
  | .redeem id token proof replyKey =>
    (w.callers.insert ⟨id, token, proof, replyKey, w.now, w.spent token, .begun⟩).map fun callers =>
      { w with callers }
  | .claim id =>
    (w.callers.lookup id).bind fun caller =>
      match caller.phase with
      | .begun =>
        match claim (digest caller.token) caller.begun w.grants with
        | some grants =>
          some ({ w with
            grants
            issued := w.issued.modify caller.token (fun issued => { issued with claimed := true })
              fun _ => rfl }.setPhase id .claimed)
        | none => some (w.setPhase id .refused)
      | _ => none
  | .load id =>
    (w.callers.lookup id).bind fun caller =>
      match caller.phase with
      | .claimed =>
        match w.grants.lookup (digest caller.token) with
        | some grant => some (w.setPhase id (.loaded grant))
        | none => some (w.setPhase id .refused)
      | _ => none
  | .verify id services draw =>
    (w.callers.lookup id).bind fun caller =>
      match caller.phase with
      | .loaded grant =>
        match release P digest alnum nfkc vault services draw caller grant with
        | .ok (envelope, identity) =>
          some (w.setPhase id (.verified grant envelope services identity))
        | .error _ => some (w.setPhase id .refused)
      | _ => none
  | .blank id =>
    (w.callers.lookup id).bind fun caller =>
      match caller.phase with
      | .verified grant envelope services identity =>
        if grant.valuesEnc = "" ∨ (w.grants.lookup grant.tokenHash).isSome then
          some ({ w with
            grants := w.grants.modify grant.tokenHash
              (fun grant => { grant with valuesEnc := "" }) fun _ => rfl }.setPhase id
                (.returned envelope services identity))
        else some (w.setPhase id .refused)
      | _ => none

def World.step (w : World) : Instant × Call → Option World
  | (now, call) =>
    if w.now ≤ now then World.perform P digest alnum nfkc vault { w with now } call else none

def credentialSystem : Machine.System World (Instant × Call) where
  step := World.step P digest alnum nfkc vault

/-! ### What is asked of every run -/

def Phase.envelope? : Phase → Option (Dict × Services × String)
  | .returned envelope services identity => some (envelope, services, identity)
  | _ => none

/-- The proof was accepted for this token by the verifier of its runner, and the envelope is sealed
to the caller for that runner and job. -/
def Released (caller : Caller) (runner jobId : String) (envelope : Dict) (services : Services)
    (identity : String) : Prop :=
  verify digest alnum nfkc services runner caller.proof caller.token = .ok identity ∧
    ∃ draw values, Sealing.sealSecret P draw caller.replyKey values
      ⟨"runner:" ++ runner, services.config.audience, jobId, ref⟩ = .ok envelope

/-- Of all redeems of a token at most one returns an envelope. It began no later than the expiry of
the token, after no revoke of its job since and no claim of it, and its proof was accepted. -/
structure Lawful (w : World) : Prop where
  once : ∀ c ∈ w.callers.rows, ∀ c' ∈ w.callers.rows, c.phase.envelope?.isSome →
    c'.phase.envelope?.isSome → c.token = c'.token → c = c'
  accepted : ∀ c ∈ w.callers.rows, ∀ envelope services identity,
    c.phase = .returned envelope services identity →
    ∃ issued, w.issued.lookup c.token = some issued ∧ c.begun ≤ issued.expiresAt ∧
      Released P digest alnum nfkc c issued.runner issued.jobId envelope services identity ∧
      Vouched digest alnum services issued.runner c.token identity
  late : ∀ c ∈ w.callers.rows, c.late = true → c.phase.envelope? = none

/-! ### The invariant -/

/-- A row is what was issued for its token, not revoked since, and redeemed when it was claimed. -/
structure Matches (grant : Grant) (issued : Issued) : Prop where
  hash : grant.tokenHash = digest issued.token
  jobId : grant.jobId = issued.jobId
  runner : grant.runner = issued.runner
  expiresAt : grant.expiresAt = issued.expiresAt
  revoked : issued.revoked = false
  redeemed : grant.redeemedAt.isSome = issued.claimed

/-- The redeem has claimed its token and was not refused since. -/
def Phase.holds : Phase → Bool
  | .begun => false
  | .refused => false
  | _ => true

/-- What the phase of a redeem keeps is about the token it claimed. -/
def Fits (caller : Caller) (runner jobId : String) : Prop :=
  match caller.phase with
  | .loaded grant => grant.runner = runner ∧ grant.jobId = jobId
  | .verified _ envelope services identity =>
    Released P digest alnum nfkc caller runner jobId envelope services identity
  | .returned envelope services identity =>
    Released P digest alnum nfkc caller runner jobId envelope services identity
  | _ => True

structure Holder (issued : Table Issued.token) (caller : Caller) : Prop where
  late : caller.late = false
  token : ∃ t, issued.lookup caller.token = some t ∧ t.claimed = true ∧
    caller.begun ≤ t.expiresAt ∧ Fits P digest alnum nfkc caller t.runner t.jobId

structure Invariant (w : World) : Prop where
  grants : ∀ grant ∈ w.grants.rows, ∃ t ∈ w.issued.rows, Matches digest grant t
  holders : ∀ c ∈ w.callers.rows, c.phase.holds = true → Holder P digest alnum nfkc w.issued c
  unique : ∀ c ∈ w.callers.rows, ∀ c' ∈ w.callers.rows, c.phase.holds = true →
    c'.phase.holds = true → c.token = c'.token → c = c'
  late : ∀ c ∈ w.callers.rows, c.late = true → w.spent c.token = true

theorem invariant_start : Invariant P digest alnum nfkc World.start where
  grants _ h := absurd h List.not_mem_nil
  holders _ h := absurd h List.not_mem_nil
  unique _ h := absurd h List.not_mem_nil
  late _ h := absurd h List.not_mem_nil

variable {P digest alnum nfkc vault}

theorem Phase.holds_of_envelope {phase : Phase} (h : phase.envelope?.isSome) :
    phase.holds = true := by
  cases phase with
  | returned => rfl
  | _ => cases h

theorem Invariant.lawful {w : World} (h : Invariant P digest alnum nfkc w) :
    Lawful P digest alnum nfkc w := by
  refine ⟨fun c hc c' hc' hs hs' htoken => ?_, fun c hc envelope services identity hphase => ?_,
    fun c hc hlate => ?_⟩
  · exact h.unique c hc c' hc' (Phase.holds_of_envelope hs) (Phase.holds_of_envelope hs') htoken
  · obtain ⟨-, t, ht, -, hbegun, hfits⟩ := h.holders c hc (by rw [hphase]; rfl)
    unfold Fits at hfits
    rw [hphase] at hfits
    exact ⟨t, ht, hbegun, hfits, verify_eq_ok hfits.1⟩
  · rw [Option.eq_none_iff_forall_ne_some]
    intro found hfound
    have hholder := h.holders c hc (Phase.holds_of_envelope (by rw [hfound]; rfl))
    rw [hholder.late] at hlate
    cases hlate

/-- No token is forgotten, and neither a revoke nor a claim is undone. -/
def Grows (issued issued' : Table Issued.token) : Prop :=
  ∀ token t, issued.lookup token = some t → ∃ t', issued'.lookup token = some t' ∧
    t'.runner = t.runner ∧ t'.jobId = t.jobId ∧ t'.expiresAt = t.expiresAt ∧
    (t.revoked = true → t'.revoked = true) ∧ (t.claimed = true → t'.claimed = true)

theorem Holder.grows {issued issued' : Table Issued.token} {c : Caller}
    (h : Holder P digest alnum nfkc issued c) (hgrows : Grows issued issued') :
    Holder P digest alnum nfkc issued' c := by
  obtain ⟨hlate, t, ht, hclaimed, hbegun, hfits⟩ := h
  obtain ⟨t', ht', hrunner, hjob, hexpires, -, hclaimed'⟩ := hgrows _ t ht
  exact ⟨hlate, t', ht', hclaimed' hclaimed, hexpires ▸ hbegun, hrunner ▸ hjob ▸ hfits⟩

theorem spent_iff {w : World} {token : String} : w.spent token = true ↔
    ∃ t, w.issued.lookup token = some t ∧ (t.revoked = true ∨ t.claimed = true) := by
  unfold World.spent
  cases w.issued.lookup token <;> simp

theorem spent_grows {w w' : World} (hgrows : Grows w.issued w'.issued) {token : String}
    (h : w.spent token = true) : w'.spent token = true := by
  obtain ⟨t, ht, hflags⟩ := spent_iff.mp h
  obtain ⟨t', ht', -, -, -, hrevoked, hclaimed⟩ := hgrows token t ht
  exact spent_iff.mpr ⟨t', ht', hflags.imp hrevoked hclaimed⟩

/-- A change of the rows and the tokens under the same callers. -/
theorem Invariant.same_callers {w w' : World} (h : Invariant P digest alnum nfkc w)
    (hcallers : w'.callers = w.callers) (hgrows : Grows w.issued w'.issued)
    (hgrants : ∀ grant ∈ w'.grants.rows, ∃ t ∈ w'.issued.rows, Matches digest grant t) :
    Invariant P digest alnum nfkc w' := by
  refine ⟨hgrants, fun c hc hholds => ?_, fun c hc c' hc' => ?_, fun c hc hlate => ?_⟩
  · exact (h.holders c (hcallers ▸ hc) hholds).grows hgrows
  · exact h.unique c (hcallers ▸ hc) c' (hcallers ▸ hc')
  · exact spent_grows hgrows (h.late c (hcallers ▸ hc) hlate)

theorem Grows.refl (issued : Table Issued.token) : Grows issued issued :=
  fun _ t ht => ⟨t, ht, rfl, rfl, rfl, id, id⟩

theorem grows_insert {issued issued' : Table Issued.token} {t : Issued}
    (h : issued.insert t = some issued') : Grows issued issued' :=
  fun _ t' ht' => ⟨t', Table.lookup_insert_of_some h ht', rfl, rfl, rfl, id, id⟩

theorem grows_revoke (issued : Table Issued.token) (jobId : String) :
    Grows issued (issued.map (revokeIssued jobId) (revokeIssued_token jobId)) := by
  intro token t ht
  refine ⟨_, Table.lookup_map (revokeIssued_token jobId) ht, ?_⟩
  unfold revokeIssued
  split
  · exact ⟨rfl, rfl, rfl, fun _ => rfl, id⟩
  · exact ⟨rfl, rfl, rfl, id, id⟩

theorem grows_claim (issued : Table Issued.token) (token : String) :
    Grows issued (issued.modify token (fun t => { t with claimed := true }) fun _ => rfl) := by
  intro key t ht
  refine ⟨_, Table.lookup_modify_of_some _ _ ht, ?_⟩
  split
  · exact ⟨rfl, rfl, rfl, id, fun _ => rfl⟩
  · exact ⟨rfl, rfl, rfl, id, id⟩

/-! ### What each call keeps -/

theorem Invariant.issue {w w' : World} (h : Invariant P digest alnum nfkc w) {started : Instant}
    {token jobId runner : String} {values : Dict}
    (hw : w.perform P digest alnum nfkc vault (.issue started token jobId runner values) = some w') :
    Invariant P digest alnum nfkc w' := by
  simp only [World.perform] at hw
  split at hw
  · cases hw
  · split at hw
    · obtain rfl := Option.some.inj hw
      exact h
    · obtain ⟨issued, hissued, hw⟩ := Option.bind_eq_some_iff.mp hw
      obtain ⟨grants, hgrants, rfl⟩ := Option.map_eq_some_iff.mp hw
      refine h.same_callers rfl (grows_insert hissued) fun grant hgrant => ?_
      rcases (Table.mem_insert hgrants).mp hgrant with hold | rfl
      · obtain ⟨t, ht, hmatch⟩ := h.grants grant (List.mem_of_mem_filter hold)
        exact ⟨t, (Table.mem_insert hissued).mpr (.inl ht), hmatch⟩
      · exact ⟨_, (Table.mem_insert hissued).mpr (.inr rfl), rfl, rfl, rfl, rfl, rfl, rfl⟩

theorem Invariant.revoke {w : World} (h : Invariant P digest alnum nfkc w) (jobId : String) :
    Invariant P digest alnum nfkc { w with
      grants := revokeForJob jobId w.grants
      issued := w.issued.map (revokeIssued jobId) (revokeIssued_token jobId) } := by
  refine h.same_callers rfl (grows_revoke w.issued jobId) fun grant hgrant => ?_
  obtain ⟨hold, hjob⟩ := List.mem_filter.mp hgrant
  obtain ⟨t, ht, hmatch⟩ := h.grants grant hold
  have hother : t.jobId ≠ jobId := hmatch.jobId ▸ of_decide_eq_true hjob
  have hsame : revokeIssued jobId t = t := if_neg hother
  exact ⟨t, List.mem_map.mpr ⟨t, ht, hsame⟩, hmatch⟩

theorem Invariant.sweep {w : World} (h : Invariant P digest alnum nfkc w) (started : Instant) :
    Invariant P digest alnum nfkc { w with grants := sweep started w.grants } :=
  h.same_callers rfl (Grows.refl w.issued) fun grant hgrant =>
    h.grants grant (List.mem_of_mem_filter hgrant)

theorem Invariant.begin {w w' : World} (h : Invariant P digest alnum nfkc w) {id : ℕ}
    {token replyKey : String} {proof : Json}
    (hw : w.perform P digest alnum nfkc vault (.redeem id token proof replyKey) = some w') :
    Invariant P digest alnum nfkc w' := by
  obtain ⟨callers, hcallers, rfl⟩ := Option.map_eq_some_iff.mp hw
  have hmem : ∀ c ∈ callers.rows, c ∈ w.callers.rows ∨
      c = ⟨id, token, proof, replyKey, w.now, w.spent token, .begun⟩ :=
    fun c hc => (Table.mem_insert hcallers).mp hc
  refine ⟨h.grants, fun c hc hholds => ?_, fun c hc c' hc' hholds hholds' htoken => ?_,
    fun c hc hlate => ?_⟩
  · rcases hmem c hc with hold | rfl
    · exact h.holders c hold hholds
    · cases hholds
  · rcases hmem c hc with hold | rfl
    · rcases hmem c' hc' with hold' | rfl
      · exact h.unique c hold c' hold' hholds hholds' htoken
      · cases hholds'
    · cases hholds
  · rcases hmem c hc with hold | rfl
    · exact h.late c hold hlate
    · exact hlate

/-- A caller moves on: a phase that holds needs a holder, and no other holder of the token. -/
theorem Invariant.setPhase {w : World} (h : Invariant P digest alnum nfkc w) {id : ℕ} {c : Caller}
    (hc : w.callers.lookup id = some c) {phase : Phase}
    (hphase : phase.holds = true → Holder P digest alnum nfkc w.issued { c with phase } ∧
      ∀ c' ∈ w.callers.rows, c'.phase.holds = true → c'.token = c.token → c'.id = c.id) :
    Invariant P digest alnum nfkc (w.setPhase id phase) := by
  obtain ⟨hmem, hid⟩ := Table.lookup_eq_some.mp hc
  have hrows : ∀ c' ∈ (w.setPhase id phase).callers.rows,
      c' = { c with phase } ∨ c' ∈ w.callers.rows ∧ c'.id ≠ c.id := by
    intro c' hc'
    rcases Table.of_modify_mem (fun _ => by rfl) hc' with ⟨old, hold, hkey, rfl⟩ | ⟨hold, hkey⟩
    · obtain rfl := Table.eq_of_key hold hmem (hkey.trans hid.symm)
      exact .inl rfl
    · exact .inr ⟨hold, fun heq => hkey (heq.trans hid)⟩
  refine ⟨h.grants, fun c' hc' hholds => ?_, fun c' hc' d hd hholds hholdsd htoken => ?_,
    fun c' hc' hlate => ?_⟩
  · rcases hrows c' hc' with rfl | ⟨hold, -⟩
    · exact (hphase hholds).1
    · exact h.holders c' hold hholds
  · rcases hrows c' hc' with rfl | ⟨hold, hne⟩
    · rcases hrows d hd with rfl | ⟨hdold, hdne⟩
      · rfl
      · exact absurd ((hphase hholds).2 d hdold hholdsd htoken.symm) hdne
    · rcases hrows d hd with rfl | ⟨hdold, hdne⟩
      · exact absurd ((hphase hholdsd).2 c' hold hholds htoken) hne
      · exact h.unique c' hold d hdold hholds hholdsd htoken
  · rcases hrows c' hc' with rfl | ⟨hold, -⟩
    · exact h.late c hmem hlate
    · exact h.late c' hold hlate

theorem Invariant.refuse {w : World} (h : Invariant P digest alnum nfkc w) {id : ℕ} {c : Caller}
    (hc : w.callers.lookup id = some c) : Invariant P digest alnum nfkc (w.setPhase id .refused) :=
  h.setPhase hc nofun

/-- A holder that moves on. -/
theorem Invariant.advance {w : World} (h : Invariant P digest alnum nfkc w) {id : ℕ} {c : Caller}
    (hc : w.callers.lookup id = some c) (hholds : c.phase.holds = true) {phase : Phase}
    (hfits : ∀ t, w.issued.lookup c.token = some t →
      Fits P digest alnum nfkc c t.runner t.jobId →
        Fits P digest alnum nfkc { c with phase } t.runner t.jobId) :
    Invariant P digest alnum nfkc (w.setPhase id phase) := by
  obtain ⟨hmem, -⟩ := Table.lookup_eq_some.mp hc
  refine h.setPhase hc fun _ => ⟨?_, fun c' hc' hholds' htoken => ?_⟩
  · obtain ⟨hlate, t, ht, hclaimed, hbegun, hfit⟩ := h.holders c hmem hholds
    exact ⟨hlate, t, ht, hclaimed, hbegun, hfits t ht hfit⟩
  · rw [h.unique c' hc' c hmem hholds' hholds htoken]

/-- The row found under the hash of a token is the row of that token. -/
theorem Invariant.found {w : World} (h : Invariant P digest alnum nfkc w)
    (hdigest : Function.Injective digest) {token : String} {grant : Grant}
    (hgrant : w.grants.lookup (digest token) = some grant) :
    ∃ t, w.issued.lookup token = some t ∧ Matches digest grant t := by
  obtain ⟨hmem, hkey⟩ := Table.lookup_eq_some.mp hgrant
  obtain ⟨t, ht, hmatch⟩ := h.grants grant hmem
  have htoken : t.token = token := hdigest (hmatch.hash.symm.trans hkey)
  exact ⟨t, Table.lookup_eq_some.mpr ⟨ht, htoken⟩, hmatch⟩

theorem claim_eq_some {hash : String} {now : Instant} {grants grants' : Grants}
    (h : claim hash now grants = some grants') : ∃ grant, grants.lookup hash = some grant ∧
      grant.redeemedAt = none ∧ now ≤ grant.expiresAt ∧ grants' =
        grants.modify hash (fun grant => { grant with redeemedAt := some now }) fun _ => rfl := by
  unfold claim at h
  split at h
  next grant hgrant =>
    split at h
    next hfree => exact ⟨grant, hgrant, hfree.1, hfree.2, (Option.some.inj h).symm⟩
    next => cases h
  next => cases h

/-- The claim: the token is neither revoked nor claimed, so the redeem is not late and no other
holds the token. -/
theorem Invariant.claim {w : World} (h : Invariant P digest alnum nfkc w)
    (hdigest : Function.Injective digest) {id : ℕ} {c : Caller}
    (hc : w.callers.lookup id = some c) {grants : Grants}
    (hclaim : claim (digest c.token) c.begun w.grants = some grants) :
    Invariant P digest alnum nfkc ({ w with
      grants
      issued := w.issued.modify c.token (fun issued => { issued with claimed := true })
        fun _ => rfl }.setPhase id .claimed) := by
  obtain ⟨grant, hgrant, hfree, hbegun, rfl⟩ := claim_eq_some hclaim
  obtain ⟨t, ht, hmatch⟩ := h.found hdigest hgrant
  have hclaimed : t.claimed = false := by
    rw [← hmatch.redeemed, hfree]
    rfl
  have hspent : w.spent c.token = false := by
    rw [← Bool.not_eq_true, spent_iff]
    rintro ⟨t', ht', hflags⟩
    obtain rfl := Option.some.inj (ht.symm.trans ht')
    rw [hmatch.revoked, hclaimed] at hflags
    simp at hflags
  have hnext : Invariant P digest alnum nfkc { w with
      grants := w.grants.modify (digest c.token)
        (fun grant => { grant with redeemedAt := some c.begun }) fun _ => rfl
      issued := w.issued.modify c.token (fun issued => { issued with claimed := true })
        fun _ => rfl } := by
    refine h.same_callers rfl (grows_claim w.issued c.token) fun other hother => ?_
    rcases Table.of_modify_mem (fun _ => by rfl) hother with ⟨old, hold, hkey, rfl⟩ | ⟨hold, hkey⟩
    · obtain rfl := Table.eq_of_key hold (Table.lookup_eq_some.mp hgrant).1
        (hkey.trans (Table.lookup_key hgrant).symm)
      refine ⟨{ t with claimed := true }, Table.modify_mem (fun _ => by rfl)
        (Table.lookup_eq_some.mp ht).1 (Table.lookup_key ht), ?_⟩
      exact ⟨hmatch.hash, hmatch.jobId, hmatch.runner, hmatch.expiresAt, hmatch.revoked, rfl⟩
    · obtain ⟨t', ht', hmatch'⟩ := h.grants other hold
      refine ⟨t', Table.modify_mem_of_ne (fun _ => by rfl) ht' fun htoken => ?_, hmatch'⟩
      exact hkey (hmatch'.hash.trans (congrArg digest htoken))
  refine hnext.setPhase hc fun _ => ⟨⟨?_, ?_⟩, fun c' hc' hholds htoken => ?_⟩
  · rw [← Bool.not_eq_true]
    intro hlate
    rw [h.late c (Table.lookup_eq_some.mp hc).1 hlate] at hspent
    cases hspent
  · refine ⟨{ t with claimed := true }, ?_, rfl, hmatch.expiresAt ▸ hbegun, trivial⟩
    exact (Table.lookup_modify_of_some _ (fun _ => by rfl) ht).trans (congrArg some (if_pos rfl))
  · obtain ⟨-, t', ht', hclaimed', -⟩ := h.holders c' hc' hholds
    rw [htoken] at ht'
    obtain rfl := Option.some.inj (ht.symm.trans ht')
    rw [hclaimed] at hclaimed'
    cases hclaimed'

theorem release_eq_ok {services : Services} {draw : Sealing.Draw} {c : Caller} {grant : Grant}
    {envelope : Dict} {identity : String}
    (h : release P digest alnum nfkc vault services draw c grant = .ok (envelope, identity)) :
    Released P digest alnum nfkc c grant.runner grant.jobId envelope services identity := by
  obtain ⟨-, -, h⟩ := Machine.bind_eq_ok h
  obtain ⟨found, hfound, h⟩ := Machine.bind_eq_ok h
  obtain ⟨values, -, h⟩ := Machine.bind_eq_ok h
  obtain ⟨sealed, hsealed, h⟩ := Machine.bind_eq_ok h
  obtain ⟨rfl, rfl⟩ := Prod.mk.inj (Except.ok.inj h)
  exact ⟨hfound, draw, values, hsealed⟩

theorem Invariant.perform {w w' : World} (h : Invariant P digest alnum nfkc w)
    (hdigest : Function.Injective digest) {call : Call}
    (hw : w.perform P digest alnum nfkc vault call = some w') :
    Invariant P digest alnum nfkc w' := by
  cases call with
  | issue started token jobId runner values => exact h.issue hw
  | revokeForJob jobId =>
    obtain rfl := Option.some.inj hw
    exact h.revoke jobId
  | sweep started =>
    simp only [World.perform] at hw
    split at hw
    · cases hw
    · obtain rfl := Option.some.inj hw
      exact h.sweep started
  | redeem id token proof replyKey => exact h.begin hw
  | claim id =>
    obtain ⟨c, hc, hw⟩ := Option.bind_eq_some_iff.mp hw
    split at hw
    next hphase =>
      split at hw
      next grants hclaim =>
        obtain rfl := Option.some.inj hw
        exact h.claim hdigest hc hclaim
      next =>
        obtain rfl := Option.some.inj hw
        exact h.refuse hc
    next => cases hw
  | load id =>
    obtain ⟨c, hc, hw⟩ := Option.bind_eq_some_iff.mp hw
    split at hw
    next hphase =>
      split at hw
      next grant hgrant =>
        obtain rfl := Option.some.inj hw
        refine h.advance hc (by rw [hphase]; rfl) fun t ht _ => ?_
        obtain ⟨t', ht', hmatch⟩ := h.found hdigest hgrant
        obtain rfl := Option.some.inj (ht.symm.trans ht')
        exact ⟨hmatch.runner, hmatch.jobId⟩
      next =>
        obtain rfl := Option.some.inj hw
        exact h.refuse hc
    next => cases hw
  | verify id services draw =>
    obtain ⟨c, hc, hw⟩ := Option.bind_eq_some_iff.mp hw
    split at hw
    next grant hphase =>
      split at hw
      next envelope identity hrelease =>
        obtain rfl := Option.some.inj hw
        refine h.advance hc (by rw [hphase]; rfl) fun t _ hfits => ?_
        unfold Fits at hfits
        rw [hphase] at hfits
        have hreleased := release_eq_ok hrelease
        rw [hfits.1, hfits.2] at hreleased
        exact hreleased
      next =>
        obtain rfl := Option.some.inj hw
        exact h.refuse hc
    next => cases hw
  | blank id =>
    obtain ⟨c, hc, hw⟩ := Option.bind_eq_some_iff.mp hw
    split at hw
    next grant envelope services identity hphase =>
      split at hw
      next =>
        obtain rfl := Option.some.inj hw
        have hblank : Invariant P digest alnum nfkc { w with
            grants := w.grants.modify grant.tokenHash
              (fun grant => { grant with valuesEnc := "" }) fun _ => rfl } := by
          refine h.same_callers rfl (Grows.refl w.issued) fun other hother => ?_
          rcases Table.of_modify_mem (fun _ => by rfl) hother with ⟨old, hold, -, rfl⟩ | ⟨hold, -⟩
          · obtain ⟨t, ht, hmatch⟩ := h.grants old hold
            exact ⟨t, ht, hmatch.hash, hmatch.jobId, hmatch.runner, hmatch.expiresAt,
              hmatch.revoked, hmatch.redeemed⟩
          · exact h.grants other hold
        refine hblank.advance hc (by rw [hphase]; rfl) fun t _ hfits => ?_
        unfold Fits at hfits
        rw [hphase] at hfits
        exact hfits
      next =>
        obtain rfl := Option.some.inj hw
        exact h.refuse hc
    next => cases hw

theorem Invariant.step {w w' : World} (h : Invariant P digest alnum nfkc w)
    (hdigest : Function.Injective digest) {call : Instant × Call}
    (hw : w.step P digest alnum nfkc vault call = some w') : Invariant P digest alnum nfkc w' := by
  obtain ⟨now, call⟩ := call
  dsimp only [World.step] at hw
  split at hw
  next =>
    have hnow : Invariant P digest alnum nfkc { w with now } :=
      ⟨h.grants, h.holders, h.unique, h.late⟩
    exact hnow.perform hdigest hw
  next => cases hw

/-- A credential is released at most once and only to its task, whatever calls come between. -/
theorem released_at_most_once (hdigest : Function.Injective digest)
    (calls : List (Instant × Call)) :
    (credentialSystem P digest alnum nfkc vault).Always (Lawful P digest alnum nfkc) World.start
      calls := by
  have hinvariant := (credentialSystem P digest alnum nfkc vault).always_of_step
    (fun w call w' h hw => Invariant.step h hdigest hw) calls
    (invariant_start P digest alnum nfkc)
  exact Machine.System.always_mono _ (fun w h => Invariant.lawful h) hinvariant

end Calls

/- A Cloud Run task collects its credential; a second one with the same token comes too late. -/

def sampleToken : String := "q3Jb0yXk1mZ8n5V2c7L4w9T6d0S3f1G8h2K5p7R4u6E"

def sampleDigest : String → String :=
  Python.digestWith
    [(sampleToken, "18fb04e0fa18fd517fcf7876788745b2c40900ef795bf7a10170e1b007609c2d")]

def sampleVault : Vault where
  encrypt text := "gAAAAA" ++ text
  decrypt text := .ok (String.ofList (text.toList.drop 6))

def sampleAccount : String := "runner@lab.iam.gserviceaccount.com"

def sampleServices : Services where
  config := ⟨"", sampleAccount, "https://dash.lab"⟩
  stsPost _ _ _ := .ok (403, .obj [])
  verifyGoogle raw audience :=
    if raw = "e30.e30.c2ln" ∧
        audience = gcpAudience sampleDigest "https://dash.lab/api/agent/runner-credential" sampleToken
    then .ok [("aud", .str audience), ("email", .str sampleAccount), ("email_verified", .bool true)]
    else .error "ValueError"

def sampleProof : Json := .obj [("id_token", .str "e30.e30.c2ln")]

/-- The public half of a key made of the byte 2. -/
def sampleReplyKey : String := "zo060cy2M+x7cMF4FKXHbs0CloUFDTRHRboFhw5YfVk="

def sampleCalls : List (Instant × Call) :=
  [(0, .issue 0 sampleToken "j-1" "gcp" [("ansible_password", .str "s3cr3t")]),
    (Python.minutes 1, .redeem 1 sampleToken sampleProof sampleReplyKey),
    (Python.minutes 1, .claim 1),
    (Python.minutes 1, .redeem 2 sampleToken sampleProof sampleReplyKey),
    (Python.minutes 2, .claim 2), (Python.minutes 2, .load 1),
    (Python.minutes 2, .verify 1 sampleServices Sealing.sampleDraw),
    (Python.minutes 3, .blank 1), (Python.minutes 4, .revokeForJob "j-1")]

theorem sampleCalls_lawful :
    (credentialSystem Sealing.samplePrimitives sampleDigest (fun _ => false) id sampleVault).Always
      (Lawful Sealing.samplePrimitives sampleDigest (fun _ => false) id) World.start sampleCalls :=
  released_at_most_once (Python.digestWith_injective (by decide) (by decide)) sampleCalls

/-- In that run the first redeem returns an envelope and the second is refused. -/
example : ((credentialSystem Sealing.samplePrimitives sampleDigest (fun _ => false) id
      sampleVault).exec World.start sampleCalls).map (fun w => w.callers.rows.map fun c =>
        (c.late, c.phase.envelope?.isSome)) = some [(false, true), (true, false)] := by
  decide +kernel

end Runners
