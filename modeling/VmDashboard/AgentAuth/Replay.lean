import VmDashboard.AgentAuth.Authenticate

/-!
# How often a signed request is accepted

A nonce stays in the table for four windows, and a timestamp is accepted within
one window on either side of the clock: the nonce outlives its own timestamp by
two windows.
-/

namespace AgentAuth
open Machine (Table)
open Python (Instant parseInt seconds)

/-- The nonce of an accepted request is in the table, or its retention is over. -/
def Remembered (w : World) (entry : Instant × Request) : Prop :=
  (∃ row ∈ w.db.nonces.rows, row.key = (entry.2.agentId, entry.2.nonce) ∧ entry.1 ≤ row.seenAt) ∨
    entry.1 + sweepHorizon 0 < w.now

/-- The later request of two with one nonce was signed more than two windows later. -/
def SignedLater (first later : Instant × Request) : Prop :=
  first.2.agentId = later.2.agentId → first.2.nonce = later.2.nonce →
    ∃ ts ts', parseInt first.2.timestamp = some ts ∧ parseInt later.2.timestamp = some ts' ∧
      ts + 2 * signatureWindowSeconds < ts'

structure Invariant (P : Primitives) (w : World) : Prop where
  fresh : ∀ entry ∈ w.accepted, ∃ key, verifyRequest P key entry.2 entry.1 = some true
  past : ∀ entry ∈ w.accepted, entry.1 ≤ w.now
  remembered : ∀ entry ∈ w.accepted, Remembered w entry
  apart : w.accepted.Pairwise SignedLater

theorem Remembered.mono {w w' : World} {entry : Instant × Request} (h : Remembered w entry)
    (hrows : ∀ row ∈ w.db.nonces.rows, row ∈ w'.db.nonces.rows) (hnow : w.now ≤ w'.now) :
    Remembered w' entry := by
  rcases h with ⟨row, hrow, hkey, hseen⟩ | hover
  · exact .inl ⟨row, hrows row hrow, hkey, hseen⟩
  · exact .inr (lt_of_lt_of_le hover hnow)

/-- A sweep takes only nonces whose retention is over. -/
theorem Remembered.sweep {w : World} {entry : Instant × Request} (h : Remembered w entry) :
    Remembered { w with db := sweepNonces w.db 0 w.now } entry := by
  rcases h with ⟨row, hrow, hkey, hseen⟩ | hover
  · by_cases hold : row.seenAt + sweepHorizon 0 < w.now
    · have hle : entry.1 + sweepHorizon 0 ≤ row.seenAt + sweepHorizon 0 := Nat.add_le_add_right hseen _
      exact .inr (lt_of_le_of_lt hle hold)
    · have hkept : row ∈ (sweepNonces w.db 0 w.now).nonces.rows :=
        List.mem_filter.mpr ⟨hrow, decide_eq_true hold⟩
      exact .inl ⟨row, hkept, hkey, hseen⟩
  · exact .inr hover

/-- Accepted again after its nonce was swept, a request carries a timestamp of its own. -/
theorem signedLater_of_over {P : Primitives} {first later : Instant × Request} {key key' : String}
    (hfirst : verifyRequest P key first.2 first.1 = some true)
    (hlater : verifyRequest P key' later.2 later.1 = some true)
    (hover : first.1 + sweepHorizon 0 < later.1) : SignedLater first later := by
  intro _ _
  obtain ⟨ts, hts, hahead, -⟩ := fresh_of_verifyRequest hfirst
  obtain ⟨ts', hts', -, hbehind⟩ := fresh_of_verifyRequest hlater
  have hhorizon : sweepHorizon 0 = 240000000 := rfl
  have hwindow : seconds signatureWindowSeconds = 60000000 := rfl
  have hsecond : seconds 1 = 1000000 := rfl
  have hsigned : signatureWindowSeconds = 60 := rfl
  have hover : (first.1 : ℤ) + 240000000 < later.1 := by
    rw [hhorizon] at hover
    exact_mod_cast hover
  rw [hwindow, hsecond] at hahead hbehind
  have hapart : ts + 120 < ts' := by
    push_cast at hahead hbehind
    omega
  refine ⟨ts, ts', hts, hts', ?_⟩
  rw [hsigned]
  exact_mod_cast hapart

theorem Invariant.step {P : Primitives} {config : Config} {w : World} (h : Invariant P w)
    (event : Event) : Invariant P (step P config w event) := by
  cases event with
  | wait elapsed =>
    refine ⟨h.fresh, fun entry hentry => ?_, fun entry hentry => ?_, h.apart⟩
    · exact Nat.le_add_right_of_le (h.past entry hentry)
    · exact (h.remembered entry hentry).mono (fun _ hrow => hrow) (Nat.le_add_right _ _)
  | deliver req ip =>
    cases hauth : authenticate P config w.db req ip w.now with
    | mk db result =>
      cases result with
      | error refusal =>
        simp only [AgentAuth.step, hauth]
        have hsame : db.nonces = w.db.nonces := nonces_of_refused hauth
        refine ⟨h.fresh, h.past, fun entry hentry => ?_, h.apart⟩
        refine (h.remembered entry hentry).mono (fun row hrow => ?_) (le_refl w.now)
        change row ∈ db.nonces.rows
        rw [hsame]
        exact hrow
      | ok _ =>
        obtain ⟨⟨key, hverify⟩, hnone, hrows⟩ := of_accepted hauth
        simp only [AgentAuth.step, hauth]
        have hmem : ∀ row ∈ w.db.nonces.rows, row ∈ db.nonces.rows := fun row hrow => by
          rw [hrows]
          exact List.mem_append_left _ hrow
        refine ⟨?_, ?_, ?_, ?_⟩
        · intro entry hentry
          rcases List.mem_append.mp hentry with hold | hnew
          · exact h.fresh entry hold
          · obtain rfl := List.mem_singleton.mp hnew
            exact ⟨key, hverify⟩
        · intro entry hentry
          rcases List.mem_append.mp hentry with hold | hnew
          · exact h.past entry hold
          · obtain rfl := List.mem_singleton.mp hnew
            exact le_refl w.now
        · intro entry hentry
          rcases List.mem_append.mp hentry with hold | hnew
          · exact (h.remembered entry hold).mono hmem (le_refl w.now)
          · obtain rfl := List.mem_singleton.mp hnew
            refine .inl ⟨⟨req.agentId, req.nonce, w.now⟩, ?_, rfl, le_refl w.now⟩
            change _ ∈ db.nonces.rows
            rw [hrows]
            exact List.mem_append_right _ (List.mem_singleton_self _)
        · refine List.pairwise_append.mpr ⟨h.apart, List.pairwise_singleton _ _, ?_⟩
          intro entry hentry later hlater
          obtain rfl := List.mem_singleton.mp hlater
          intro hagent hnonce
          obtain ⟨key', hverify'⟩ := h.fresh entry hentry
          rcases h.remembered entry hentry with ⟨row, hrow, hkey, -⟩ | hover
          · rw [hagent, hnonce] at hkey
            exact absurd hkey (Table.lookup_eq_none.mp hnone row hrow)
          · exact signedLater_of_over hverify' hverify hover hagent hnonce
  | sweep =>
    exact ⟨h.fresh, h.past, fun entry hentry => (h.remembered entry hentry).sweep, h.apart⟩
  | administer agents =>
    refine ⟨h.fresh, h.past, fun entry hentry => ?_, h.apart⟩
    exact (h.remembered entry hentry).mono (fun _ hrow => hrow) (le_refl w.now)

theorem invariant_of_run (P : Primitives) (config : Config) (db : Db) (now : Instant)
    (run : List Event) :
    (server P config).Always (Invariant P) ⟨db, now, []⟩ run := by
  refine (server P config).always_of_step (fun w event w' h ht => ?_) run ?_
  · obtain rfl := Option.some.inj ht
    exact h.step event
  · refine ⟨?_, ?_, ?_, List.Pairwise.nil⟩ <;> intro entry hentry <;> cases hentry

/-- In every run, two accepted requests with one nonce of one agent carry timestamps more than two
windows apart, so that no signed request is accepted twice. -/
theorem accepted_once (P : Primitives) (config : Config) (db : Db) (now : Instant)
    (run : List Event) :
    (server P config).Always (fun w => w.accepted.Pairwise SignedLater ∧
      (w.accepted.map fun entry => (entry.2.agentId, entry.2.timestamp, entry.2.nonce)).Nodup)
      ⟨db, now, []⟩ run := by
  refine (server P config).always_mono (fun w h => ⟨h.apart, ?_⟩)
    (invariant_of_run P config db now run)
  refine List.pairwise_map.mpr (h.apart.imp fun {first later} hlater heq => ?_)
  obtain ⟨hagent, hrest⟩ := Prod.mk.inj heq
  obtain ⟨htimestamp, hnonce⟩ := Prod.mk.inj hrest
  obtain ⟨ts, ts', hts, hts', hlt⟩ := hlater hagent hnonce
  obtain rfl := Option.some.inj ((htimestamp ▸ hts).symm.trans hts')
  omega

/-! ### A nonce that its agent signs twice -/

/-- A poll at the given second with the nonce `n1`. -/
def poll (second signature : String) : Request where
  agentId := "a1"
  timestamp := second
  nonce := "n1"
  signature := signature
  audience := "dash"
  method := "POST"
  path := "/api/agent/lease"
  body := []

def early : Request := poll "1000" (String.join (List.replicate 21 "AAAA") ++ "AA==")

def late : Request := poll "1300" (String.join (List.replicate 21 "AQEB") ++ "AQ==")

/-- The agent has signed the two polls and nothing else. -/
def signedPolls : Primitives :=
  let unsigned : Primitives := ⟨fun _ => "e3b0c442", fun _ => true, fun _ _ _ => false⟩
  { unsigned with
    verify := fun _ signature message =>
      (signature = List.replicate 64 0 && message = canonicalRequest unsigned early) ||
        (signature = List.replicate 64 1 && message = canonicalRequest unsigned late) }

def enrolled : RemoteAgent where
  id := "a1"
  isActive := true
  publicKey := String.join (List.replicate 10 "AAAA") ++ "AAA="

def enrolledDb : Db := ⟨⟨[enrolled], by decide⟩, Table.empty⟩

def twice : List Event := [.deliver early "", .wait (seconds 300), .sweep, .deliver late ""]

theorem nonce_accepted_twice :
    ¬∀ (P : Primitives) (config : Config) (db : Db) (now : Instant) (run : List Event),
      (server P config).Always
        (fun w => (w.accepted.map fun entry => (entry.2.agentId, entry.2.nonce)).Nodup)
        ⟨db, now, []⟩ run := by
  intro h
  exact absurd (h signedPolls {} enrolledDb (seconds 1000) twice) (by decide +kernel)

end AgentAuth
