import VmDashboard.Spiffe.Assertion

/-!
# An assertion authenticates once

How often the calls presenting one assertion succeed, in any order with sweeps
of the replay table. The row a call leaves is found by a later call when both
present the same text and the row has not expired; the token library still
accepts the assertion up to a second after that, and any text of the signature
it decodes to the same bytes.
-/

namespace Spiffe
open Machine (Table)
open Python (Instant)

inductive Event (K : Type*)
  | present (p : Presentation K)
  /-- A sweep of the table, by a sign-in ceremony or by a call for another assertion. -/
  | sweep (now : Instant) (which : String → Bool)

variable {K : Type*} (validSignature : K → String → String → List ℕ → Bool) (sha256 : String → String)

/-- The calls of the run that succeed. -/
def successes (svid : Svid) : ReplayTable → List (Event K) → ℕ
  | _, [] => 0
  | rows, .sweep now which :: run => successes svid (sweepReplay rows now which) run
  | rows, .present p :: run =>
    match authenticate validSignature sha256 svid p rows with
    | .ok (_, after) => successes svid (if p.commits then after else rows) run + 1
    | .error _ => successes svid rows run

def presented : List (Event K) → List (Presentation K)
  | [] => []
  | .sweep _ _ :: run => presented run
  | .present p :: run => p :: presented run

def Event.readings : Event K → List Instant
  | .present p => [p.verifiedAt, p.decodedAt, p.consumedAt]
  | .sweep now _ => [now]

/-- The clock never goes back. -/
def Nondecreasing (run : List (Event K)) : Prop := (run.flatMap Event.readings).Pairwise (· ≤ ·)

/-- The presentation verifies and names an active client; `consume` decides. -/
def accepted (svid : Svid) (p : Presentation K) : Bool := (resolveClient validSignature svid p).isOk

/-- The first one is committed, and each later one has its text's digest and comes while the
first one's row is kept. -/
def UsedOnce (svid : Svid) : List (Presentation K) → Prop
  | [] => True
  | p :: later => (later ≠ [] → p.commits) ∧
      ∀ q ∈ later, replayKey sha256 svid q.segment = replayKey sha256 svid p.segment ∧
        (q.consumedAt : ℤ) ≤ svid.rowExpiry

/-! ### One call -/

theorem mem_sweepReplay {rows : ReplayTable} {now : Instant} {which : String → Bool} {r : Replay} :
    r ∈ (sweepReplay rows now which).rows ↔
      r ∈ rows.rows ∧ ¬(which r.key = true ∧ r.expiresAt < (now : ℤ)) := by
  simp only [sweepReplay, List.mem_filter, Bool.not_eq_true', Bool.and_eq_false_iff,
    decide_eq_false_iff_not, not_and_or, Bool.not_eq_true]

theorem isReplayKey_replayKey (svid : Svid) (segment : String) :
    isReplayKey (replayKey sha256 svid segment) = true := by
  simp [isReplayKey, replayKey]

/-- No live row stands in the way of the presentation. -/
def Open (svid : Svid) (p : Presentation K) (rows : ReplayTable) : Prop :=
  ∀ r ∈ rows.rows, r.key = replayKey sha256 svid p.segment → r.expiresAt < (p.consumedAt : ℤ)

/-- `consume` records an open presentation and refuses every other. -/
theorem consume_open {svid : Svid} {p : Presentation K} {rows : ReplayTable}
    (h : Open sha256 svid p rows) :
    ∃ after, consume sha256 svid p rows = .ok after ∧
      ∀ r, r ∈ after.rows ↔ r ∈ (sweepReplay rows p.consumedAt isReplayKey).rows ∨
        r = ⟨replayKey sha256 svid p.segment, svid.rowExpiry⟩ := by
  have hfree : replayKey sha256 svid p.segment ∉
      (sweepReplay rows p.consumedAt isReplayKey).rows.map Replay.key := by
    intro hmem
    obtain ⟨r, hr, hkey⟩ := List.mem_map.mp hmem
    obtain ⟨hr, hlive⟩ := mem_sweepReplay.mp hr
    exact hlive ⟨hkey ▸ isReplayKey_replayKey sha256 svid p.segment, h r hr hkey⟩
  simp only [consume, Table.insert, dif_neg hfree]
  exact ⟨_, rfl, fun r => by simp⟩

theorem consume_closed {svid : Svid} {p : Presentation K} {rows : ReplayTable}
    (h : ¬Open sha256 svid p rows) : consume sha256 svid p rows = .error .used := by
  unfold Open at h
  push Not at h
  obtain ⟨r, hr, hkey, hlive⟩ := h
  have htaken : replayKey sha256 svid p.segment ∈
      (sweepReplay rows p.consumedAt isReplayKey).rows.map Replay.key := by
    refine List.mem_map.mpr ⟨r, mem_sweepReplay.mpr ⟨hr, fun hgone => ?_⟩, hkey⟩
    omega
  simp only [consume, Table.insert, dif_pos htaken]

theorem authenticate_open {svid : Svid} {p : Presentation K} {rows : ReplayTable}
    (haccepted : accepted validSignature svid p = true) (hopen : Open sha256 svid p rows) :
    ∃ client after, authenticate validSignature sha256 svid p rows = .ok (client, after) ∧
      ∀ r, r ∈ after.rows ↔ r ∈ (sweepReplay rows p.consumedAt isReplayKey).rows ∨
        r = ⟨replayKey sha256 svid p.segment, svid.rowExpiry⟩ := by
  unfold accepted at haccepted
  cases hclient : resolveClient validSignature svid p with
  | error refusal =>
    rw [hclient] at haccepted
    cases haccepted
  | ok client =>
    obtain ⟨after, hconsume, hrows⟩ := consume_open sha256 hopen
    refine ⟨client, after, ?_, hrows⟩
    simp [authenticate, hclient, hconsume, bind, Except.bind, pure, Except.pure]

theorem authenticate_refused {svid : Svid} {p : Presentation K} {rows : ReplayTable}
    (h : accepted validSignature svid p = false ∨ ¬Open sha256 svid p rows) :
    ∃ refusal, authenticate validSignature sha256 svid p rows = .error refusal := by
  unfold accepted at h
  cases hclient : resolveClient validSignature svid p with
  | error refusal => exact ⟨refusal, by simp [authenticate, hclient, bind, Except.bind]⟩
  | ok client =>
    obtain hnot | hclosed := h
    · rw [hclient] at hnot
      cases hnot
    · refine ⟨.used, ?_⟩
      simp [authenticate, hclient, consume_closed sha256 hclosed, bind, Except.bind]

/-! ### Runs -/

theorem Open.sweep {svid : Svid} {p : Presentation K} {rows : ReplayTable}
    (h : Open sha256 svid p rows) (now : Instant) (which : String → Bool) :
    Open sha256 svid p (sweepReplay rows now which) :=
  fun r hr hkey => h r (mem_sweepReplay.mp hr).1 hkey

/-- A presentation nothing stands in the way of means a success, of it or of one before. -/
theorem one_le_successes {svid : Svid} {run : List (Event K)} {rows : ReplayTable}
    {q : Presentation K} (hq : q ∈ presented run) (haccepted : accepted validSignature svid q = true)
    (hopen : Open sha256 svid q rows) : 1 ≤ successes validSignature sha256 svid rows run := by
  induction run generalizing rows with
  | nil => cases hq
  | cons event run ih =>
    cases event with
    | sweep now which => exact ih hq (hopen.sweep sha256 now which)
    | present p =>
      unfold successes
      cases hauth : authenticate validSignature sha256 svid p rows with
      | ok answer => exact Nat.le_add_left 1 _
      | error refusal =>
        obtain rfl | hq := List.mem_cons.mp hq
        · obtain ⟨client, after, hok, -⟩ := authenticate_open validSignature sha256 haccepted hopen
          rw [hauth] at hok
          cases hok
        · exact ih hq hopen

theorem consumedAt_mem {run : List (Event K)} {q : Presentation K} (hq : q ∈ presented run) :
    q.consumedAt ∈ run.flatMap Event.readings := by
  induction run with
  | nil => cases hq
  | cons event run ih =>
    rw [List.flatMap_cons, List.mem_append]
    cases event with
    | sweep now which => exact .inr (ih hq)
    | present p =>
      obtain rfl | hq := List.mem_cons.mp hq
      · exact .inl (by simp [Event.readings])
      · exact .inr (ih hq)

/-- While the row is there and kept, every presentation of its key is refused. -/
theorem successes_blocked {svid : Svid} (key : String) {run : List (Event K)} {rows : ReplayTable}
    (hclock : Nondecreasing run)
    (hkeys : ∀ q ∈ presented run, accepted validSignature svid q = true →
      replayKey sha256 svid q.segment = key ∧ (q.consumedAt : ℤ) ≤ svid.rowExpiry)
    (hrow : (∃ q ∈ presented run, accepted validSignature svid q = true) →
      ⟨key, svid.rowExpiry⟩ ∈ rows.rows) :
    successes validSignature sha256 svid rows run = 0 := by
  induction run generalizing rows with
  | nil => rfl
  | cons event run ih =>
    have hclock' : Nondecreasing run := by
      rw [Nondecreasing, List.flatMap_cons, List.pairwise_append] at hclock
      exact hclock.2.1
    cases event with
    | sweep now which =>
      refine ih hclock' hkeys fun hlater => ?_
      obtain ⟨q, hq, haccepted⟩ := hlater
      refine mem_sweepReplay.mpr ⟨hrow ⟨q, hq, haccepted⟩, fun hgone => ?_⟩
      have hle : (now : ℤ) ≤ q.consumedAt := by
        rw [Nondecreasing, List.flatMap_cons, List.pairwise_append] at hclock
        exact_mod_cast hclock.2.2 now (by simp [Event.readings]) q.consumedAt (consumedAt_mem hq)
      have hkept := (hkeys q hq haccepted).2
      have hexpired : svid.rowExpiry < (now : ℤ) := hgone.2
      omega
    | present p =>
      have hrefused : ∃ refusal, authenticate validSignature sha256 svid p rows = .error refusal := by
        refine authenticate_refused validSignature sha256 ?_
        cases haccepted : accepted validSignature svid p with
        | false => exact .inl rfl
        | true =>
          obtain ⟨hkey, hkept⟩ := hkeys p List.mem_cons_self haccepted
          refine .inr fun hopen => ?_
          have hexpired : svid.rowExpiry < (p.consumedAt : ℤ) :=
            hopen _ (hrow ⟨p, List.mem_cons_self, haccepted⟩) hkey.symm
          omega
      obtain ⟨refusal, hauth⟩ := hrefused
      simp only [successes, hauth]
      refine ih hclock' (fun q hq => hkeys q (List.mem_cons_of_mem p hq)) fun hlater => hrow ?_
      obtain ⟨q, hq, haccepted⟩ := hlater
      exact ⟨q, List.mem_cons_of_mem p hq, haccepted⟩

/-- The calls presenting one assertion succeed at most once exactly when the first that verifies
is committed and the others that verify find its row. -/
theorem single_use_iff {svid : Svid} {run : List (Event K)} {rows : ReplayTable}
    (hnew : ∀ q ∈ presented run, ∀ r ∈ rows.rows, r.key ≠ replayKey sha256 svid q.segment)
    (hclock : Nondecreasing run) :
    successes validSignature sha256 svid rows run ≤ 1 ↔
      UsedOnce sha256 svid ((presented run).filter (accepted validSignature svid)) := by
  induction run generalizing rows with
  | nil => simp [successes, presented, UsedOnce]
  | cons event run ih =>
    have hclock' : Nondecreasing run := by
      rw [Nondecreasing, List.flatMap_cons, List.pairwise_append] at hclock
      exact hclock.2.1
    cases event with
    | sweep now which =>
      exact ih (fun q hq r hr => hnew q hq r (mem_sweepReplay.mp hr).1) hclock'
    | present p =>
      have hnew' : ∀ q ∈ presented run, ∀ r ∈ rows.rows, r.key ≠ replayKey sha256 svid q.segment :=
        fun q hq => hnew q (List.mem_cons_of_mem p hq)
      cases haccepted : accepted validSignature svid p with
      | false =>
        have hrefused : ∃ refusal, authenticate validSignature sha256 svid p rows = .error refusal :=
          authenticate_refused validSignature sha256 (.inl haccepted)
        obtain ⟨refusal, hauth⟩ := hrefused
        simp only [successes, hauth, presented, List.filter_cons, haccepted]
        exact ih hnew' hclock'
      | true =>
        have hopen : Open sha256 svid p rows := fun r hr hkey =>
          absurd hkey (hnew p List.mem_cons_self r hr)
        obtain ⟨client, after, hauth, hrows⟩ := authenticate_open validSignature sha256 haccepted hopen
        simp only [successes, hauth, presented, List.filter_cons, haccepted, if_true, UsedOnce]
        generalize htable : (if p.commits = true then after else rows) = table
        have hopenq : ∀ q ∈ presented run,
            (replayKey sha256 svid q.segment ≠ replayKey sha256 svid p.segment ∨
              svid.rowExpiry < (q.consumedAt : ℤ) ∨ p.commits = false) → Open sha256 svid q table := by
          intro q hq hfree r hr hkey
          have hcases : r ∈ rows.rows ∨ p.commits = true ∧
              r = ⟨replayKey sha256 svid p.segment, svid.rowExpiry⟩ := by
            subst htable
            split at hr
            next hcommits =>
              exact ((hrows r).mp hr).imp (fun h => (mem_sweepReplay.mp h).1) fun h => ⟨hcommits, h⟩
            next => exact .inl hr
          obtain hold | ⟨hcommits, rfl⟩ := hcases
          · exact absurd hkey (hnew' q hq r hold)
          · obtain hne | hexpired | hnot := hfree
            · exact absurd hkey.symm hne
            · exact hexpired
            · rw [hcommits] at hnot
              cases hnot
        constructor
        · intro hone
          have hnone : ∀ q ∈ presented run, accepted validSignature svid q = true →
              ¬Open sha256 svid q table := by
            intro q hq hqa hqopen
            have htwo := one_le_successes validSignature sha256 hq hqa hqopen
            omega
          refine ⟨fun hlater => ?_, fun q hq => ?_⟩
          · obtain ⟨q, hq⟩ := List.exists_mem_of_ne_nil _ hlater
            obtain ⟨hq, hqa⟩ := List.mem_filter.mp hq
            by_contra hnot
            exact hnone q hq hqa (hopenq q hq (.inr (.inr (Bool.eq_false_iff.mpr hnot))))
          · obtain ⟨hq, hqa⟩ := List.mem_filter.mp hq
            constructor
            · by_contra hne
              exact hnone q hq hqa (hopenq q hq (.inl hne))
            · by_contra hexpired
              exact hnone q hq hqa (hopenq q hq (.inr (.inl (by omega))))
        · intro hused
          obtain ⟨hcommits, hkeys⟩ := hused
          have hblocked : successes validSignature sha256 svid table run = 0 := by
            refine successes_blocked validSignature sha256 (replayKey sha256 svid p.segment)
              hclock' (fun q hq hqa => hkeys q (List.mem_filter.mpr ⟨hq, hqa⟩)) fun hlater => ?_
            obtain ⟨q, hq, hqa⟩ := hlater
            have hp := hcommits (List.ne_nil_of_mem (List.mem_filter.mpr ⟨hq, hqa⟩))
            rw [← htable, if_pos hp]
            exact (hrows _).mpr (.inr rfl)
          omega

/-! ### Two runs -/

def sampleSvid : Svid where
  signingInput := "h.p"
  alg := "RS256"
  kid := none
  sub := "spiffe://lab/worker"
  aud := ["https://dash"]
  exp := 1000

/- The one key signs the assertion with the bytes 77, 97, 110. -/
def sampleSignature (_ : Unit) (_ _ : String) (signature : List ℕ) : Bool := signature = [77, 97, 110]

/- SHA-256 on the two texts below. -/
def sampleDigest (text : String) : String :=
  if text = "h.p.TWFu" then
    "89300e490d720bec4f3536059b8579e8a1a91965ab0c7cebcba14c936dfeca7c"
  else if text = "h.p.TWF!u" then
    "9fe94a5cd3344d8a8b8394ec12b906620bdbcc0f244fc00e5a6321fa81a7e3d5"
  else text

def sampleDirectory : Directory Unit where
  keysFor _ _ := some [()]
  clients := [⟨"vmsa_1", some "spiffe://lab/worker", authMethod, true, "u1"⟩]
  users := [⟨"u1", "worker", true, true⟩]

/- A call whose three clock readings are the same. -/
def sampleCall (segment : String) (now : Instant) : Event Unit :=
  .present ⟨segment, ["https://dash"], "", sampleDirectory, now, now, now, true⟩

/- Fresh, again, and after a sweep. -/
def replayRun : List (Event Unit) :=
  [sampleCall "TWFu" 990000000, sampleCall "TWFu" 1000500000, .sweep 1020000000 fun _ => true,
   sampleCall "TWFu" 1030000000]

theorem single_use_replayRun :
    (successes sampleSignature sampleDigest sampleSvid .empty replayRun ≤ 1 ↔
      UsedOnce sampleDigest sampleSvid ((presented replayRun).filter
        (accepted sampleSignature sampleSvid))) ∧
      successes sampleSignature sampleDigest sampleSvid .empty replayRun = 1 := by
  refine ⟨single_use_iff sampleSignature sampleDigest ?_ ?_, by decide +kernel⟩
  · exact fun q _ r hr => absurd hr List.not_mem_nil
  · unfold Nondecreasing
    decide

/-- Half a second after the row has expired the token library still accepts the assertion; and a
text with one character outside the alphabet decodes to the same signature. -/
theorem replayed_twice :
    Nondecreasing [sampleCall "TWFu" 990000000, sampleCall "TWFu" 1030500000] ∧
      successes sampleSignature sampleDigest sampleSvid .empty
        [sampleCall "TWFu" 990000000, sampleCall "TWFu" 1030500000] = 2 ∧
      successes sampleSignature sampleDigest sampleSvid .empty
        [sampleCall "TWFu" 990000000, sampleCall "TWF!u" 990000000] = 2 := by
  refine ⟨?_, by decide +kernel, by decide +kernel⟩
  unfold Nondecreasing
  decide

end Spiffe
