import VmDashboard.Agent.Slots

/-!
# How many jobs run at once, and when a control job is alone

The number of jobs of a kind that hold a slot is the number the agent counts, and
the room the main thread found when it asked is still there when the answer
comes: only the main thread takes slots.
-/

namespace Slots
open JobSlots (kind)

/-! ### Counting jobs -/

theorem countP_set_add {α : Type*} {l : List α} {i : ℕ} {a b : α} (p : α → Bool)
    (h : l[i]? = some a) :
    (l.set i b).countP p + (if p a then 1 else 0) = l.countP p + (if p b then 1 else 0) := by
  induction l generalizing i with
  | nil => cases h
  | cons c l ih =>
    cases i with
    | zero =>
      obtain rfl := Option.some.inj h
      simp only [List.set_cons_zero, List.countP_cons]
      omega
    | succ i =>
      have := ih (i := i) h
      simp only [List.set_cons_succ, List.countP_cons]
      omega

namespace State
variable (s : State)

theorem live_le_present (k : Kind) : s.live k ≤ s.present k := by
  refine List.countP_mono_left fun job _ h => ?_
  simp only [Job.live, Job.present, Bool.and_eq_true] at h ⊢
  exact ⟨h.1.2, h.2⟩

theorem present_le_total (k : Kind) : s.present k ≤ s.total :=
  List.countP_mono_left fun _ _ h => ((Bool.and_eq_true _ _).mp h).1

theorem live_le_total : s.jobs.countP Job.live ≤ s.total := by
  refine List.countP_mono_left fun job _ h => ?_
  simp only [Job.live, Bool.and_eq_true] at h
  exact h.2

theorem total_eq : s.total = s.present .ansible + s.present .robot + s.present .other := by
  simp only [total, present]
  induction s.jobs with
  | nil => rfl
  | cons job jobs ih =>
    have hkind : job.kind = .ansible ∨ job.kind = .robot ∨ job.kind = .other := by
      cases job.kind <;> simp
    simp only [List.countP_cons, ih]
    rcases hkind with h | h | h <;> cases job.present <;> simp [h] <;> omega

theorem call_eq_some {s t : State} {i : ℕ} {p : Job → Bool} {f : Job → State} :
    s.call i p f = some t ↔ ∃ job, s.jobs[i]? = some job ∧ p job = true ∧ t = f job := by
  unfold call
  constructor
  · intro h
    split at h
    next job hjob =>
      split at h
      next hp => exact ⟨job, hjob, hp, (Option.some.inj h).symm⟩
      · cases h
    · cases h
  · rintro ⟨job, hjob, hp, rfl⟩
    rw [hjob]
    exact if_pos hp

/-- A job that goes from phase to phase without leaving holds the slot it held. -/
theorem present_move {s : State} {i : ℕ} {job : Job} {phase : Phase} (h : s.jobs[i]? = some job)
    (hjob : job.phase ≠ .left) (hphase : phase ≠ .left) (k : Kind) :
    (s.move i job phase).present k = s.present k := by
  have hcount := countP_set_add (b := { job with phase := phase })
    (fun job => job.present && job.kind = k) h
  have hsame : ∀ q : Phase, q ≠ .left → ({ job with phase := q } : Job).present = true := by
    intro q hq
    exact decide_eq_true hq
  have hold : job.present = true := decide_eq_true hjob
  simp only [hsame phase hphase, hold, Job.kind] at hcount
  exact Nat.add_right_cancel hcount

theorem total_move {s : State} {i : ℕ} {job : Job} {phase : Phase} (h : s.jobs[i]? = some job)
    (hjob : job.phase ≠ .left) (hphase : phase ≠ .left) : (s.move i job phase).total = s.total := by
  rw [total_eq, total_eq, present_move h hjob hphase, present_move h hjob hphase,
    present_move h hjob hphase]

/-- A job that leaves gives its slot back. -/
theorem present_left {s : State} {i : ℕ} {job : Job} (h : s.jobs[i]? = some job)
    (hjob : job.phase = .ended) (k : Kind) :
    (s.move i job .left).present k + (if job.kind = k then 1 else 0) = s.present k := by
  have hcount := countP_set_add (b := { job with phase := .left })
    (fun job => job.present && job.kind = k) h
  have hold : job.present = true := by rw [Job.present, hjob]; rfl
  have hnew : ({ job with phase := .left } : Job).present = false := rfl
  simp only [hold, hnew, Bool.true_and, Bool.false_and, decide_eq_true_eq] at hcount
  exact hcount

theorem total_left {s : State} {i : ℕ} {job : Job} (h : s.jobs[i]? = some job)
    (hjob : job.phase = .ended) : (s.move i job .left).total + 1 = s.total := by
  have hcount := countP_set_add (b := { job with phase := .left }) Job.present h
  have hold : job.present = true := by rw [Job.present, hjob]; rfl
  have hnew : ({ job with phase := .left } : Job).present = false := rfl
  rw [hold, hnew] at hcount
  exact hcount

theorem mem_move {s : State} {i : ℕ} {job other : Job} {phase : Phase}
    (h : other ∈ (s.move i job phase).jobs) :
    other ∈ s.jobs ∨ other = { job with phase := phase } := List.mem_or_eq_of_mem_set h

end State

theorem kind_of_control {job : Job} (h : job.control = true) : job.kind = .other := by
  have hmem : job.jobType ∈ controlJobTypes := of_decide_eq_true h
  have hall : ∀ t ∈ controlJobTypes, kind t = .other := by decide
  exact hall _ hmem

/-! ### The slots -/

/-- The kinds the main thread may be about to start. -/
def Main.Wants : Main → Kind → Prop
  | .asking (some want), k => k ∈ want.map kind
  | .asking none, _ => True
  | .leased jobType, k => kind jobType = k
  | _, _ => False

/-- The job has `hold` up. -/
def Job.holds (job : Job) : Bool := job.phase = .waiting || job.phase = .granted

/-- What every run keeps. -/
structure Inv (policy : Policy) (s : State) : Prop where
  ansible : s.slots.ansible = policy.ansibleMaxConcurrent
  counted : s.slots.serial = false → ∀ k, s.slots.running k = s.present k
  within : s.slots.serial = false → ∀ k, s.present k ≤ s.slots.limit k
  room : s.slots.serial = false → ∀ k, s.main.Wants k → s.present k < s.slots.limit k
  single : s.slots.serial = true → s.total ≤ 1 ∧ (s.main = .inline ∨ s.total = 0)
  control : ∀ job ∈ s.jobs, job.holds = true → job.control = true
  held : ∀ job ∈ s.jobs, job.holds = true → s.slots.hold = true

theorem kind_of_mem_wanted {policy : Policy} {slots : JobSlots} {k : Kind}
    (h : k ∈ (slots.wanted policy).map kind) : slots.running k < slots.limit k := by
  obtain ⟨t, ht, rfl⟩ := List.mem_map.mp h
  obtain ⟨-, hfree⟩ := List.mem_filter.mp ht
  exact of_decide_eq_true hfree

namespace Inv
variable {policy : Policy} {s t : State}

theorem of_start (policy : Policy) : Inv policy (start policy) where
  ansible := Nat.max_eq_right policy.slots_pos
  counted _ _ := rfl
  within _ _ := Nat.zero_le _
  room _ _ h := h.elim
  single _ := ⟨Nat.zero_le _, .inr rfl⟩
  control _ h := nomatch h
  held _ h := nomatch h

/-- At most one job holds or waits for the agent. -/
theorem holders_le (h : Inv policy s) : s.jobs.countP Job.holds ≤ 1 := by
  have hpresent : s.jobs.countP Job.holds ≤ s.present .other := by
    refine List.countP_mono_left fun job hjob hholds => ?_
    have hkind := kind_of_control (h.control job hjob hholds)
    have hleft : job.present = true := by
      refine decide_eq_true fun hleft => ?_
      rw [Job.holds, hleft] at hholds
      cases hholds
    rw [hleft, hkind]
    rfl
  cases hserial : s.slots.serial with
  | false => exact hpresent.trans (h.within hserial .other)
  | true => exact (hpresent.trans (s.present_le_total _)).trans (h.single hserial).1

/-- When the one holder lets go, nobody holds. -/
theorem none_holds (h : Inv policy s) {i : ℕ} {job : Job} (phase : Phase)
    (hi : s.jobs[i]? = some job) (hjob : job.holds = true)
    (hphase : ({ job with phase := phase } : Job).holds = false) :
    ∀ other ∈ (s.move i job phase).jobs, other.holds = false := by
  intro other hother
  have hcount := countP_set_add (b := { job with phase := phase }) Job.holds hi
  have hle := h.holders_le
  have hzero : (s.move i job phase).jobs.countP Job.holds = 0 := by
    rw [hjob, hphase] at hcount
    simp only [State.move]
    simp at hcount
    omega
  cases hholds : other.holds with
  | false => rfl
  | true =>
    have := List.countP_pos_iff.mpr ⟨other, hother, hholds⟩
    omega

/-- A step of the main thread alone. -/
theorem setMain (h : Inv policy s) {main : Main}
    (hroom : s.slots.serial = false → ∀ k, main.Wants k → s.present k < s.slots.limit k)
    (hsingle : s.slots.serial = true → main = .inline ∨ s.total = 0) :
    Inv policy { s with main := main } where
  ansible := h.ansible
  counted := h.counted
  within := h.within
  room := hroom
  single hserial := ⟨(h.single hserial).1, hsingle hserial⟩
  control := h.control
  held := h.held

theorem total_zero (h : Inv policy s) (hserial : s.slots.serial = true) (hmain : s.main ≠ .inline) :
    s.total = 0 := (h.single hserial).2.resolve_left hmain

/-- A job goes on to a phase in which it still has its slot. -/
theorem move (h : Inv policy s) {i : ℕ} {job : Job} {phase : Phase} (hold : Bool)
    (hi : s.jobs[i]? = some job) (hjob : job.phase ≠ .left) (hphase : phase ≠ .left)
    (hcontrol : ({ job with phase := phase } : Job).holds = true → job.control = true)
    (hheld : ∀ other ∈ (s.move i job phase).jobs, other.holds = true → hold = true) :
    Inv policy ((s.move i job phase).setHold hold) where
  ansible := h.ansible
  counted hserial k := by
    have := State.present_move hi hjob hphase k
    exact (h.counted hserial k).trans this.symm
  within hserial k := by
    have := State.present_move hi hjob hphase k
    exact this.le.trans (h.within hserial k)
  room hserial k hwants := by
    have := State.present_move hi hjob hphase k
    exact this.le.trans_lt (h.room hserial k hwants)
  single hserial := by
    have htotal := State.total_move hi hjob hphase
    obtain ⟨hle, hmain⟩ := h.single hserial
    exact ⟨htotal.le.trans hle, hmain.imp_right htotal.trans⟩
  control other hother hholds := by
    rcases State.mem_move hother with hmem | rfl
    · exact h.control other hmem hholds
    · exact hcontrol hholds
  held := hheld

theorem move_same (h : Inv policy s) {i : ℕ} {job : Job} {phase : Phase}
    (hi : s.jobs[i]? = some job) (hjob : job.phase ≠ .left) (hphase : phase ≠ .left)
    (hholds : ({ job with phase := phase } : Job).holds = true → job.holds = true) :
    Inv policy (s.move i job phase) := by
  have hmem := List.mem_of_getElem? hi
  refine h.move s.slots.hold hi hjob hphase
    (fun hnew => h.control job hmem (hholds hnew)) fun other hother hnew => ?_
  rcases State.mem_move hother with hold | rfl
  · exact h.held other hold hnew
  · exact h.held job hmem (hholds hnew)

/-- The main thread starts a job. -/
theorem started (h : Inv policy s) {jobType : String} (hmain : s.main = .leased jobType)
    (ht : step policy s .run = some t) : Inv policy t := by
  have hcontrol : ∀ job ∈ s.jobs ++ [({ jobType } : Job)], job.holds = true → job.control = true := by
    intro job hjob hholds
    rcases List.mem_append.mp hjob with hmem | hnew
    · exact h.control job hmem hholds
    · obtain rfl := List.mem_singleton.mp hnew
      cases hholds
  have hheld : ∀ job ∈ s.jobs ++ [({ jobType } : Job)], job.holds = true → s.slots.hold = true := by
    intro job hjob hholds
    rcases List.mem_append.mp hjob with hmem | hnew
    · exact h.held job hmem hholds
    · obtain rfl := List.mem_singleton.mp hnew
      cases hholds
  simp only [step, hmain] at ht
  split at ht
  next hserial =>
    obtain rfl := Option.some.inj ht
    have hzero := h.total_zero hserial (by rw [hmain]; nofun)
    refine ⟨h.ansible, fun hne => ?_, fun hne => ?_, fun hne => ?_, fun _ => ⟨?_, .inl rfl⟩,
      hcontrol, hheld⟩
    · exact nomatch hserial.symm.trans hne
    · exact nomatch hserial.symm.trans hne
    · exact nomatch hserial.symm.trans hne
    · have hone : List.countP Job.present (s.jobs ++ [({ jobType } : Job)]) = s.total + 1 :=
        List.countP_append
      rw [hzero] at hone
      exact hone.le
  next hserial =>
    obtain rfl := Option.some.inj ht
    have hserial : s.slots.serial = false := by simpa using hserial
    have hroom := h.room hserial (kind jobType) (by rw [hmain]; rfl)
    have hpresent : ∀ k, State.present ⟨s.slots.bump (kind jobType), .top,
        s.jobs ++ [({ jobType } : Job)]⟩ k = s.present k + if kind jobType = k then 1 else 0 := by
      intro k
      have hnew : (({ jobType } : Job).present && ({ jobType } : Job).kind = k) =
          decide (kind jobType = k) := rfl
      simp only [State.present, List.countP_append, List.countP_singleton, hnew]
      by_cases hk : kind jobType = k <;> simp [hk]
    refine ⟨h.ansible, fun _ k => ?_, fun _ k => ?_, fun _ k hwants => hwants.elim, fun hne => ?_,
      hcontrol, hheld⟩
    · have hcounted := h.counted hserial k
      rw [hpresent]
      simp only [JobSlots.bump, Function.update_apply]
      by_cases hk : k = kind jobType
      · rw [if_pos hk, if_pos hk.symm, ← hk, hcounted]
      · rw [if_neg hk, if_neg (Ne.symm hk), hcounted, Nat.add_zero]
    · have hwithin := h.within hserial k
      rw [hpresent]
      change s.present k + _ ≤ s.slots.limit k
      by_cases hk : kind jobType = k
      · rw [if_pos hk]
        rw [hk] at hroom
        omega
      · rw [if_neg hk]
        omega
    · exact nomatch hserial.symm.trans hne

/-- A job gives its slot back. -/
theorem gone (h : Inv policy s) {i : ℕ} {job : Job} (hi : s.jobs[i]? = some job)
    (hjob : job.phase = .ended) (ht : step policy s (.leave i) = some t) : Inv policy t := by
  have hmem := List.mem_of_getElem? hi
  have hpresent := State.present_left hi hjob
  have htotal := State.total_left hi hjob
  have hcontrol : ∀ other ∈ (s.move i job .left).jobs, other.holds = true → other.control = true := by
    intro other hother hholds
    rcases State.mem_move hother with hold | rfl
    · exact h.control other hold hholds
    · cases hholds
  have hheld : ∀ other ∈ (s.move i job .left).jobs, other.holds = true → s.slots.hold = true := by
    intro other hother hholds
    rcases State.mem_move hother with hold | rfl
    · exact h.held other hold hholds
    · cases hholds
  obtain ⟨job', hi', -, rfl⟩ := State.call_eq_some.mp ht
  obtain rfl := Option.some.inj (hi.symm.trans hi')
  split
  next hserial =>
    obtain ⟨hle, -⟩ := h.single hserial
    have hzero : (s.move i job .left).total = 0 := by omega
    refine ⟨h.ansible, fun hne => ?_, fun hne => ?_, fun hne => ?_,
      fun _ => ⟨hzero.le.trans (Nat.zero_le _), .inr hzero⟩, hcontrol, hheld⟩
    · exact nomatch hserial.symm.trans hne
    · exact nomatch hserial.symm.trans hne
    · exact nomatch hserial.symm.trans hne
  next hserial =>
    have hserial : s.slots.serial = false := by simpa using hserial
    have hle : ∀ k, (s.move i job .left).present k ≤ s.present k := fun k =>
      (Nat.le_add_right _ _).trans (hpresent k).le
    refine ⟨h.ansible, fun _ k => ?_, fun _ k => (hle k).trans (h.within hserial k),
      fun _ k hwants => (hle k).trans_lt (h.room hserial k hwants), fun hne => ?_, hcontrol, hheld⟩
    · have hcounted := h.counted hserial k
      have hleft := hpresent k
      change Function.update s.slots.running job.kind _ k = (s.move i job .left).present k
      rw [Function.update_apply]
      by_cases hk : k = job.kind
      · subst hk
        rw [if_pos rfl, hcounted]
        rw [if_pos rfl] at hleft
        omega
      · rw [if_neg hk, hcounted]
        rw [if_neg (Ne.symm hk)] at hleft
        omega
    · exact nomatch hserial.symm.trans hne

theorem step (h : Inv policy s) {e : Event} (hasked : Asked s e)
    (ht : Slots.step policy s e = some t) : Inv policy t := by
  cases e with
  | look =>
    simp only [Slots.step] at ht
    split at ht
    next hmain =>
      split at ht
      · cases ht
      · split at ht
        · obtain rfl := Option.some.inj ht
          exact h
        · obtain rfl := Option.some.inj ht
          exact h.setMain (fun _ _ hwants => hwants.elim)
            fun hserial => .inr (h.total_zero hserial (by rw [hmain]; nofun))
    · cases ht
  | ask =>
    simp only [Slots.step] at ht
    split at ht
    next hmain =>
      have hzero : s.slots.serial = true → s.total = 0 := fun hserial =>
        h.total_zero hserial (by rw [hmain]; nofun)
      split at ht
      next hserial =>
        obtain rfl := Option.some.inj ht
        exact h.setMain (fun hne => nomatch hserial.symm.trans hne) fun hserial => .inr (hzero hserial)
      · split at ht
        · obtain rfl := Option.some.inj ht
          exact h.setMain (fun _ _ hwants => hwants.elim) fun hserial => .inr (hzero hserial)
        · obtain rfl := Option.some.inj ht
          refine h.setMain (fun hserial k hwants => ?_) fun hserial => .inr (hzero hserial)
          rw [← h.counted hserial k]
          exact kind_of_mem_wanted hwants
    · cases ht
  | answer job =>
    simp only [Slots.step] at ht
    split at ht
    next want hmain =>
      have hzero : s.slots.serial = true → s.total = 0 := fun hserial =>
        h.total_zero hserial (by rw [hmain]; nofun)
      split at ht
      next jobType =>
        obtain rfl := Option.some.inj ht
        refine h.setMain (fun hserial k hwants => ?_) fun hserial => .inr (hzero hserial)
        have hk : kind jobType = k := hwants
        subst hk
        refine h.room hserial _ ?_
        rw [hmain]
        cases want with
        | none => trivial
        | some want =>
          simp only [Asked, hmain] at hasked
          exact hasked
      · obtain rfl := Option.some.inj ht
        exact h.setMain (fun _ _ hwants => hwants.elim) fun hserial => .inr (hzero hserial)
    · cases ht
  | run =>
    have hmain : ∃ jobType, s.main = .leased jobType := by
      simp only [Slots.step] at ht
      split at ht
      next jobType hmain => exact ⟨jobType, hmain⟩
      · cases ht
    obtain ⟨jobType, hmain⟩ := hmain
    exact h.started hmain ht
  | quiesce i =>
    obtain ⟨job, hi, hguard, rfl⟩ := State.call_eq_some.mp ht
    simp only [Bool.and_eq_true, decide_eq_true_eq] at hguard
    exact h.move true hi (by rw [hguard.2]; nofun) nofun (fun _ => hguard.1.1) fun _ _ _ => rfl
  | grant i =>
    obtain ⟨job, hi, hguard, rfl⟩ := State.call_eq_some.mp ht
    simp only [Bool.and_eq_true, decide_eq_true_eq] at hguard
    exact h.move_same hi (by rw [hguard.1]; nofun) nofun fun _ => by rw [Job.holds, hguard.1]; rfl
  | giveUp i =>
    obtain ⟨job, hi, hguard, rfl⟩ := State.call_eq_some.mp ht
    simp only [Bool.and_eq_true, decide_eq_true_eq] at hguard
    have hnone := h.none_holds .refused hi (by rw [Job.holds, hguard.1]; rfl) rfl
    refine h.move false hi (by rw [hguard.1]; nofun) nofun nofun fun other hother hholds => ?_
    exact absurd hholds (by simp [hnone other hother])
  | release i =>
    obtain ⟨job, hi, hguard, rfl⟩ := State.call_eq_some.mp ht
    simp only [decide_eq_true_eq] at hguard
    have hnone := h.none_holds .released hi (by rw [Job.holds, hguard]; rfl) rfl
    refine h.move false hi (by rw [hguard]; nofun) nofun nofun fun other hother hholds => ?_
    exact absurd hholds (by simp [hnone other hother])
  | finish i =>
    obtain ⟨job, hi, hguard, rfl⟩ := State.call_eq_some.mp ht
    simp only [Job.live, Bool.and_eq_true, decide_eq_true_eq] at hguard
    exact h.move_same hi hguard.1.2 nofun nofun
  | leave i =>
    obtain ⟨job, hi, hguard, -⟩ := State.call_eq_some.mp ht
    exact h.gone hi (of_decide_eq_true hguard) ht
  | sigterm =>
    obtain rfl := Option.some.inj ht
    exact ⟨h.ansible, h.counted, h.within, h.room, h.single, h.control, h.held⟩

theorem within_policy (h : Inv policy s) : Within policy s := by
  have hbound : ∀ k, s.live k ≤ s.slots.limit k ∨ s.live k ≤ 1 := by
    intro k
    cases hserial : s.slots.serial with
    | false => exact .inl ((s.live_le_present k).trans (h.within hserial k))
    | true =>
      have := (h.single hserial).1
      exact .inr (((s.live_le_present k).trans (s.present_le_total k)).trans this)
  have hansible : s.slots.limit .ansible = policy.ansibleMaxConcurrent := h.ansible
  have hpos := policy.slots_pos
  refine ⟨?_, (hbound .robot).elim id id, (hbound .other).elim id id⟩
  have := hbound .ansible
  omega

end Inv

/-! ### The promise of `quiesce` -/

/-- While a granted control job has not ended, it alone has a slot and no job is on its way. -/
def Quiet (s : State) : Prop :=
  (∃ job ∈ s.jobs, job.exclusive = true) → s.total ≤ 1 ∧ (s.main = .top ∨ s.main = .inline)

namespace Quiet
variable {policy : Policy} {s t : State}

theorem of_start (policy : Policy) : Quiet (start policy) := fun ⟨_, hjob, _⟩ => nomatch hjob

theorem alone (h : Quiet s) : Alone s := fun hjob => s.live_le_total.trans (h hjob).1

/-- No job is exclusive while the main thread is past its look at `hold`. -/
theorem none_exclusive (h : Quiet s) (hmain : s.main ≠ .top) (hinline : s.main ≠ .inline) :
    ∀ job ∈ s.jobs, job.exclusive = false := by
  intro job hjob
  cases hexclusive : job.exclusive with
  | false => rfl
  | true => exact (h ⟨job, hjob, hexclusive⟩).2.elim (absurd · hmain) (absurd · hinline)

theorem of_none (h : ∀ job ∈ t.jobs, job.exclusive = false) : Quiet t := by
  rintro ⟨job, hjob, hexclusive⟩
  rw [h job hjob] at hexclusive
  cases hexclusive

theorem move (h : Quiet s) {i : ℕ} {job : Job} {phase : Phase} (hold : Bool)
    (hi : s.jobs[i]? = some job) (hjob : job.phase ≠ .left) (hphase : phase ≠ .left)
    (hexclusive : ({ job with phase := phase } : Job).exclusive = true → job.exclusive = true) :
    Quiet ((s.move i job phase).setHold hold) := by
  rintro ⟨other, hother, hnew⟩
  have hmem := List.mem_of_getElem? hi
  have hs : ∃ job ∈ s.jobs, job.exclusive = true := by
    rcases State.mem_move hother with hold | rfl
    · exact ⟨other, hold, hnew⟩
    · exact ⟨job, hmem, hexclusive hnew⟩
  obtain ⟨hle, hmain⟩ := h hs
  exact ⟨(State.total_move hi hjob hphase).le.trans hle, hmain⟩

theorem total_le_of_quiet (hinv : Inv policy s) (h : s.slots.quiet = true) : s.total ≤ 1 := by
  cases hserial : s.slots.serial with
  | true => exact (hinv.single hserial).1
  | false =>
    simp only [JobSlots.quiet, hserial, Bool.false_or, decide_eq_true_eq, JobSlots.others,
      hinv.counted hserial] at h
    have htotal := s.total_eq
    omega

theorem step (h : Quiet s) (hinv : Inv policy s) {e : Event} (hclear : Clear s e)
    (ht : Slots.step policy s e = some t) : Quiet t := by
  cases e with
  | look =>
    simp only [Slots.step] at ht
    split at ht
    next hmain =>
      split at ht
      · cases ht
      · split at ht
        · obtain rfl := Option.some.inj ht
          exact h
        next hhold =>
          obtain rfl := Option.some.inj ht
          refine of_none fun job hjob => ?_
          have hreleased : job.phase ≠ .released := hclear job hjob
          have hgranted : job.phase ≠ .granted := fun hphase =>
            hhold (hinv.held job hjob (by rw [Job.holds, hphase]; rfl))
          simp [Job.exclusive, hreleased, hgranted]
    · cases ht
  | ask =>
    simp only [Slots.step] at ht
    split at ht
    next hmain =>
      have hnone := h.none_exclusive (by rw [hmain]; nofun) (by rw [hmain]; nofun)
      split at ht
      · obtain rfl := Option.some.inj ht
        exact of_none hnone
      · split at ht
        · obtain rfl := Option.some.inj ht
          exact of_none hnone
        · obtain rfl := Option.some.inj ht
          exact of_none hnone
    · cases ht
  | answer job =>
    simp only [Slots.step] at ht
    split at ht
    next want hmain =>
      have hnone := h.none_exclusive (by rw [hmain]; nofun) (by rw [hmain]; nofun)
      split at ht
      · obtain rfl := Option.some.inj ht
        exact of_none hnone
      · obtain rfl := Option.some.inj ht
        exact of_none hnone
    · cases ht
  | run =>
    simp only [Slots.step] at ht
    split at ht
    next jobType hmain =>
      have hnone := h.none_exclusive (by rw [hmain]; nofun) (by rw [hmain]; nofun)
      have hstarted : ∀ job ∈ s.jobs ++ [({ jobType } : Job)], job.exclusive = false := by
        intro job hjob
        rcases List.mem_append.mp hjob with hold | hnew
        · exact hnone job hold
        · obtain rfl := List.mem_singleton.mp hnew
          rfl
      split at ht
      · obtain rfl := Option.some.inj ht
        exact of_none hstarted
      · obtain rfl := Option.some.inj ht
        exact of_none hstarted
    · cases ht
  | quiesce i =>
    obtain ⟨job, hi, hguard, rfl⟩ := State.call_eq_some.mp ht
    simp only [Bool.and_eq_true, decide_eq_true_eq] at hguard
    exact h.move true hi (by rw [hguard.2]; nofun) nofun nofun
  | grant i =>
    -- Here the promise is made: the slots are empty but for this job, and nothing is on its way.
    obtain ⟨job, hi, hguard, rfl⟩ := State.call_eq_some.mp ht
    simp only [Bool.and_eq_true, decide_eq_true_eq] at hguard
    have htotal : (s.move i job .granted).total = s.total :=
      State.total_move hi (by rw [hguard.1]; nofun) nofun
    exact fun _ => ⟨htotal.le.trans (total_le_of_quiet hinv hguard.2), hclear⟩
  | giveUp i =>
    obtain ⟨job, hi, hguard, rfl⟩ := State.call_eq_some.mp ht
    simp only [Bool.and_eq_true, decide_eq_true_eq] at hguard
    exact h.move false hi (by rw [hguard.1]; nofun) nofun nofun
  | release i =>
    obtain ⟨job, hi, hguard, rfl⟩ := State.call_eq_some.mp ht
    simp only [decide_eq_true_eq] at hguard
    exact h.move false hi (by rw [hguard]; nofun) nofun fun _ => by rw [Job.exclusive, hguard]; rfl
  | finish i =>
    obtain ⟨job, hi, hguard, rfl⟩ := State.call_eq_some.mp ht
    simp only [Job.live, Bool.and_eq_true, decide_eq_true_eq] at hguard
    exact h.move s.slots.hold hi hguard.1.2 nofun nofun
  | leave i =>
    obtain ⟨job, hi, hguard, rfl⟩ := State.call_eq_some.mp ht
    have htotal := State.total_left hi (of_decide_eq_true hguard)
    have hs : ∀ other ∈ (s.move i job .left).jobs, other.exclusive = true →
        ∃ job ∈ s.jobs, job.exclusive = true := by
      intro other hother hexclusive
      rcases State.mem_move hother with hold | rfl
      · exact ⟨other, hold, hexclusive⟩
      · cases hexclusive
    split
    · rintro ⟨other, hother, hexclusive⟩
      have := (h (hs other hother hexclusive)).1
      exact ⟨by change (s.move i job .left).total ≤ 1; omega, .inl rfl⟩
    · rintro ⟨other, hother, hexclusive⟩
      obtain ⟨hle, hmain⟩ := h (hs other hother hexclusive)
      exact ⟨by change (s.move i job .left).total ≤ 1; omega, hmain⟩
  | sigterm =>
    obtain rfl := Option.some.inj ht
    exact h

end Quiet

theorem inv_of_asked {policy : Policy} {run : List Event}
    (h : (system policy).Along Asked (start policy) run) :
    (system policy).Always (Inv policy) (start policy) run :=
  (system policy).always_of_along (fun _ _ _ hs hasked ht => hs.step hasked ht)
    (Inv.of_start policy) h

/-- Whatever the dashboard leases of what it was asked for, no kind runs more jobs than it has
slots, and where no grant and no release falls into the gaps of the main loop, a control job
that was granted the agent runs alone to its end. -/
theorem slots_kept (policy : Policy) (run : List Event)
    (hasked : (system policy).Along Asked (start policy) run) :
    (system policy).Always (Within policy) (start policy) run ∧
      ((system policy).Along Clear (start policy) run →
        (system policy).Always Alone (start policy) run) := by
  refine ⟨(system policy).always_mono (fun _ h => h.within_policy) (inv_of_asked hasked),
    fun hclear => ?_⟩
  have hboth := (system policy).along_and hasked hclear
  have hkept : (system policy).Always (fun s => Inv policy s ∧ Quiet s) (start policy) run :=
    (system policy).always_of_along
      (fun _ _ _ hs hl ht => ⟨hs.1.step hl.1 ht, hs.2.step hs.1 hl.2 ht⟩)
      ⟨Inv.of_start policy, Quiet.of_start policy⟩ hboth
  exact (system policy).always_mono (fun _ h => h.2.alone) hkept

instance (policy : Policy) (s : State) : Decidable (Within policy s) :=
  decidable_of_iff (s.live .ansible ≤ policy.ansibleMaxConcurrent ∧ s.live .robot ≤ 1 ∧
    s.live .other ≤ 1) ⟨fun h => ⟨h.1, h.2.1, h.2.2⟩, fun h => ⟨h.1, h.2, h.3⟩⟩

instance (s : State) : Decidable (Alone s) :=
  inferInstanceAs (Decidable ((∃ job ∈ s.jobs, job.exclusive = true) → _))

instance (s : State) (e : Event) : Decidable (Asked s e) := by
  unfold Asked
  split
  · split <;> infer_instance
  · infer_instance

instance (s : State) (e : Event) : Decidable (Clear s e) := by
  unfold Clear
  split <;> infer_instance

def twoSlots : Policy where
  jobTypes := ["agent_ansible", "agent_discover"]
  upgrades := true
  uiRobotEnabled := false
  ansibleMaxConcurrent := 2
  slots_pos := by decide
  slots_le := by decide

/-- Two playbooks run, end, and the agent is granted to a restart. -/
def drained : List Event :=
  [.look, .ask, .answer (some "agent_ansible"), .run, .look, .ask, .answer (some "agent_ansible"),
    .run, .look, .ask, .answer (some "agent_restart"), .run, .quiesce 2, .finish 0, .leave 0,
    .finish 1, .leave 1, .look, .grant 2, .look, .release 2, .finish 2, .leave 2, .look]

theorem drained_kept :
    ((system twoSlots).exec (start twoSlots) drained).isSome = true ∧
      (system twoSlots).Always (Within twoSlots) (start twoSlots) drained ∧
        (system twoSlots).Always Alone (start twoSlots) drained :=
  ⟨by decide +kernel,
    (slots_kept twoSlots drained (by decide +kernel)).1,
    (slots_kept twoSlots drained (by decide +kernel)).2 (by decide +kernel)⟩

/-- The agent is granted to a restart while a lease request is in flight, and the request brings a
playbook. -/
def overtaken : List Event :=
  [.look, .ask, .answer (some "agent_restart"), .run, .look, .ask, .quiesce 0, .grant 0,
    .answer (some "agent_ansible"), .run]

theorem slots_not_kept :
    ¬∀ (policy : Policy) (run : List Event), (system policy).Along Asked (start policy) run →
      (system policy).Always (fun s => Within policy s ∧ Alone s) (start policy) run := by
  intro h
  have hasked : (system twoSlots).Along Asked (start twoSlots) overtaken := by decide +kernel
  exact absurd (h twoSlots overtaken hasked) (by decide +kernel)

end Slots
