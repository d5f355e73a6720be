import VmDashboard.Login.Guard
import VmDashboard.Python.Case

/-!
# How many failed logins an interval lets through

Every failure that still counts at a check has a row the check can see: a failure
without a row has left the window or was cleared. A login that passes the check
therefore finds room for one more failure, and keeps it while it is the only
login of its username under way.
-/

namespace LoginGuard
open Python (Instant)

/-- The row of the failure is there, or was cleared, or has left the window. -/
def Traced (config : Config) (rows : List LoginAttempt) (clears : List (String × Instant))
    (now : Instant) (failure : Failure) : Prop :=
  (∃ row ∈ rows, row.id = failure.row ∧ row.username = failure.key ∧
    row.attemptedAt = failure.failedAt) ∨
  (∃ entry ∈ clears, entry.1 = failure.key ∧ failure.failedAt ≤ entry.2) ∨
  (failure.failedAt : ℤ) + window config < now

/-- One more failure of the username would not exceed the cap in any interval around `instant`. -/
def Room (config : Config) (w : World) (key : String) (instant : Instant) : Prop :=
  ∀ start, Within config start instant → Uncleared config w key start →
    ((letThrough config w key start).length : ℤ) < config.maxAttempts

structure Kept (config : Config) (w : World) : Prop where
  rows : ∀ failure ∈ w.failures, failure.row < w.next
  nodup : (w.failures.map Failure.row).Nodup
  order : ∀ failure ∈ w.failures, failure.checkedAt ≤ failure.failedAt
  past : ∀ failure ∈ w.failures, failure.failedAt ≤ w.now
  checked : ∀ login ∈ w.logins, login.checkedAt ≤ w.now
  cleared : ∀ entry ∈ w.clears, entry.2 ≤ w.now
  traced : ∀ failure ∈ w.failures, Traced config w.rows w.clears w.now failure
  single : (w.logins.map Login.key).Nodup
  room : ∀ login ∈ w.logins, Room config w login.key login.checkedAt
  capped : Capped config w

variable {lower : String → String} {config : Config} {w : World}

/-! ### What a check sees -/

theorem mem_matching {rows : List LoginAttempt} {key ip : String} {oldest : ℤ} {row : LoginAttempt} :
    row ∈ matching rows key ip oldest ↔
      row ∈ rows ∧ oldest ≤ row.attemptedAt ∧ (row.username = key ∨ row.ip = ip) := by
  unfold matching
  rw [List.mem_insertionSort, List.mem_filter, decide_eq_true_eq]

theorem eq_of_cutoff {now : Instant} {minutes oldest : ℤ} (h : cutoff now minutes = some oldest) :
    oldest = now - timedelta minutes := by
  simp only [cutoff, Option.ite_none_right_eq_some, Option.some.injEq] at h
  exact h.2.symm

/-- A login that is let through has fewer rows in the window than the cap. -/
theorem rows_lt_of_check {rows : List LoginAttempt} {username ip : String} {now : Instant}
    (hcheck : check lower config rows username ip false now = none) (henabled : config.enabled = true)
    (hcap : 0 < config.maxAttempts)
    (hscan : ∀ oldest ∈ cutoff now config.windowMinutes,
      (matching rows (normalizeUsername lower username) ip oldest).length ≤ maxRowsScanned) :
    (((matching rows (normalizeUsername lower username) ip (now - window config)).filter
      (·.username = normalizeUsername lower username)).length : ℤ) < config.maxAttempts := by
  unfold check at hcheck
  rw [if_neg (not_not.mpr henabled)] at hcheck
  split at hcheck
  · cases hcheck
  next oldest holdest =>
    have hvalue : oldest = now - window config := eq_of_cutoff holdest
    have hall := hscan oldest holdest
    subst hvalue
    obtain ⟨huser, -⟩ := Option.or_eq_none_iff.mp hcheck
    rw [if_neg (by decide : ¬false = true), List.take_of_length_le hall] at huser
    unfold overCap at huser
    split at huser
    · cases huser
    next hover =>
      rw [List.length_map] at hover
      omega

/-- A login that is let through finds room for its failure. -/
theorem room_of_check (h : Kept config w) {username ip : String}
    (hcheck : check lower config w.rows username ip false w.now = none)
    (henabled : config.enabled = true) (hcap : 0 < config.maxAttempts)
    (hscan : ∀ oldest ∈ cutoff w.now config.windowMinutes,
      (matching w.rows (normalizeUsername lower username) ip oldest).length ≤ maxRowsScanned) :
    Room config w (normalizeUsername lower username) w.now := by
  intro start hstart huncleared
  have hrows := rows_lt_of_check hcheck henabled hcap hscan
  have hsubset : ((letThrough config w (normalizeUsername lower username) start).map Failure.row) ⊆
      ((matching w.rows (normalizeUsername lower username) ip (w.now - window config)).filter
        (·.username = normalizeUsername lower username)).map LoginAttempt.id := by
    intro id hid
    obtain ⟨failure, hfailure, rfl⟩ := List.mem_map.mp hid
    obtain ⟨hmem, hin⟩ := List.mem_filter.mp hfailure
    obtain ⟨hkey, hfrom, hto⟩ := of_decide_eq_true hin
    have horder := h.order failure hmem
    rcases h.traced failure hmem with
      ⟨row, hrow, hrowid, hname, hat⟩ | ⟨entry, hentry, hname, hlater⟩ | hold
    · refine List.mem_map.mpr ⟨row, List.mem_filter.mpr ⟨?_, ?_⟩, hrowid⟩
      · refine mem_matching.mpr ⟨hrow, ?_, .inl (hname.trans hkey)⟩
        rw [hat]
        have hto := hstart.2
        have : (failure.checkedAt : ℤ) ≤ failure.failedAt := by exact_mod_cast horder
        omega
      · exact decide_eq_true (hname.trans hkey)
    · have hpast : (entry.2 : ℤ) ≤ w.now := by exact_mod_cast h.cleared entry hentry
      have hle : (failure.checkedAt : ℤ) ≤ entry.2 := by exact_mod_cast horder.trans hlater
      exact absurd ⟨hfrom.trans hle, hpast.trans hstart.2⟩ (huncleared entry hentry (hname.trans hkey))
    · have hle : (failure.checkedAt : ℤ) ≤ failure.failedAt := by exact_mod_cast horder
      have := hstart.2
      omega
  have hnodup :
      ((letThrough config w (normalizeUsername lower username) start).map Failure.row).Nodup :=
    h.nodup.sublist (List.filter_sublist.map Failure.row)
  have hle := (List.subperm_of_subset hnodup hsubset).length_le
  rw [List.length_map, List.length_map] at hle
  omega

/-! ### What a sweep leaves -/

theorem Traced.mono {rows rows' : List LoginAttempt} {clears clears' : List (String × Instant)}
    {now now' : Instant} {failure : Failure} (h : Traced config rows clears now failure)
    (hrows : ∀ row ∈ rows, row ∈ rows') (hclears : ∀ entry ∈ clears, entry ∈ clears')
    (hnow : now ≤ now') : Traced config rows' clears' now' failure := by
  rcases h with ⟨row, hrow, hrest⟩ | ⟨entry, hentry, hrest⟩ | hold
  · exact .inl ⟨row, hrows row hrow, hrest⟩
  · exact .inr (.inl ⟨entry, hclears entry hentry, hrest⟩)
  · have : (now : ℤ) ≤ now' := by exact_mod_cast hnow
    exact .inr (.inr (hold.trans_le this))

theorem Traced.swept {rows : List LoginAttempt} {clears : List (String × Instant)} {now : Instant}
    {failure : Failure} (h : Traced config rows clears now failure)
    (hsound : SweepsOld config rows now) :
    Traced config (sweep config rows now) clears now failure := by
  rcases h with ⟨row, hrow, hid, hname, hat⟩ | hrest
  · unfold sweep
    split
    next oldest holdest =>
      by_cases hgone : row.attemptedAt < oldest
      · have hleft := hsound oldest holdest row hrow hgone
        rw [hat] at hleft
        exact .inr (.inr hleft)
      · exact .inl ⟨row, List.mem_filter.mpr ⟨hrow, decide_eq_true hgone⟩, hid, hname, hat⟩
    · exact .inl ⟨row, hrow, hid, hname, hat⟩
  · exact .inr hrest

theorem Traced.cleared {rows : List LoginAttempt} {clears : List (String × Instant)} {now : Instant}
    {failure : Failure} (username : String) (h : Traced config rows clears now failure)
    (hpast : failure.failedAt ≤ now) :
    Traced config (clear lower rows username) (clears ++ [(normalizeUsername lower username, now)])
      now failure := by
  rcases h with ⟨row, hrow, hid, hname, hat⟩ | ⟨entry, hentry, hrest⟩ | hold
  · by_cases hkey : row.username = normalizeUsername lower username
    · have hmem : (normalizeUsername lower username, now) ∈
          clears ++ [(normalizeUsername lower username, now)] :=
        List.mem_append_right _ (List.mem_singleton_self _)
      exact .inr (.inl ⟨_, hmem, hkey.symm.trans hname, hpast⟩)
    · exact .inl ⟨row, List.mem_filter.mpr ⟨hrow, decide_eq_true hkey⟩, hid, hname, hat⟩
  · exact .inr (.inl ⟨entry, List.mem_append_left _ hentry, hrest⟩)
  · exact .inr (.inr hold)

/-! ### The calls -/

theorem key_of_failing {key : String} {login : Login} (h : failing w key = some login) :
    login ∈ w.logins ∧ login.key = key :=
  ⟨List.mem_of_find?_eq_some h, by simpa using List.find?_some h⟩

theorem length_letThrough {w w' : World} {failure : Failure}
    (h : w'.failures = w.failures ++ [failure]) (key : String) (start : ℤ) :
    (letThrough config w' key start).length = (letThrough config w key start).length +
      if failure.key = key ∧ Within config start failure.checkedAt then 1 else 0 := by
  unfold letThrough
  rw [h, List.filter_append, List.length_append]
  congr 1
  by_cases hin : failure.key = key ∧ Within config start failure.checkedAt
  · simp only [hin, decide_true, List.filter_cons_of_pos, List.filter_nil, List.length_singleton,
      and_self, if_true]
  · simp only [hin, decide_false, Bool.false_eq_true, not_false_eq_true, List.filter_cons_of_neg,
      List.filter_nil, List.length_nil, if_false]

namespace Kept

theorem wait (h : Kept config w) (elapsed : ℕ) : Kept config { w with now := w.now + elapsed } where
  rows := h.rows
  nodup := h.nodup
  order := h.order
  past failure hfailure := Nat.le_add_right_of_le (h.past failure hfailure)
  checked login hlogin := Nat.le_add_right_of_le (h.checked login hlogin)
  cleared entry hentry := Nat.le_add_right_of_le (h.cleared entry hentry)
  traced failure hfailure :=
    (h.traced failure hfailure).mono (fun _ h => h) (fun _ h => h) (Nat.le_add_right _ _)
  single := h.single
  room := h.room
  capped := h.capped

theorem letIn (h : Kept config w) {key : String} (hnew : ∀ login ∈ w.logins, login.key ≠ key)
    (hroom : Room config w key w.now) :
    Kept config { w with logins := w.logins ++ [⟨key, w.now⟩] } where
  rows := h.rows
  nodup := h.nodup
  order := h.order
  past := h.past
  checked login hlogin := by
    rcases List.mem_append.mp hlogin with hold | hlast
    · exact h.checked login hold
    · obtain rfl := List.mem_singleton.mp hlast
      exact le_refl w.now
  cleared := h.cleared
  traced := h.traced
  single := by
    rw [List.map_append, List.nodup_append]
    refine ⟨h.single, List.nodup_singleton _, ?_⟩
    intro a ha b hb hab
    obtain rfl := List.mem_singleton.mp hb
    obtain ⟨login, hlogin, hkey⟩ := List.mem_map.mp ha
    exact hnew login hlogin (hkey.trans hab)
  room login hlogin := by
    rcases List.mem_append.mp hlogin with hold | hlast
    · exact h.room login hold
    · obtain rfl := List.mem_singleton.mp hlast
      exact hroom
  capped := h.capped

theorem ended (h : Kept config w) (login : Login) :
    Kept config { w with logins := w.logins.erase login } where
  rows := h.rows
  nodup := h.nodup
  order := h.order
  past := h.past
  checked other hother := h.checked other (List.mem_of_mem_erase hother)
  cleared := h.cleared
  traced := h.traced
  single := h.single.sublist (List.erase_sublist.map _)
  room other hother := h.room other (List.mem_of_mem_erase hother)
  capped := h.capped

theorem setRows (h : Kept config w) {rows : List LoginAttempt} {next : ℕ} (hnext : w.next ≤ next)
    (htraced : ∀ failure ∈ w.failures, Traced config rows w.clears w.now failure) :
    Kept config { w with rows := rows, next := next } where
  rows failure hfailure := (h.rows failure hfailure).trans_le hnext
  nodup := h.nodup
  order := h.order
  past := h.past
  checked := h.checked
  cleared := h.cleared
  traced := htraced
  single := h.single
  room := h.room
  capped := h.capped

/-- The login fails: its room is what keeps the cap, and no other login of the username has any. -/
theorem failed (h : Kept config w) {login : Login} (hlogin : login ∈ w.logins)
    {rows : List LoginAttempt}
    (htraced : ∀ failure ∈ w.failures, Traced config rows w.clears w.now failure)
    (hnew : Traced config rows w.clears w.now ⟨login.key, login.checkedAt, w.now, w.next⟩) :
    Kept config { w with
      rows := rows
      next := w.next + 1
      logins := w.logins.erase login
      failures := w.failures ++ [⟨login.key, login.checkedAt, w.now, w.next⟩] } where
  rows failure hfailure := by
    rcases List.mem_append.mp hfailure with hold | hlast
    · exact Nat.lt_succ_of_lt (h.rows failure hold)
    · obtain rfl := List.mem_singleton.mp hlast
      exact Nat.lt_succ_self _
  nodup := by
    rw [List.map_append, List.nodup_append]
    refine ⟨h.nodup, List.nodup_singleton _, ?_⟩
    intro a ha b hb hab
    obtain rfl := List.mem_singleton.mp hb
    obtain ⟨failure, hfailure, rfl⟩ := List.mem_map.mp ha
    exact absurd hab (Nat.ne_of_lt (h.rows failure hfailure))
  order failure hfailure := by
    rcases List.mem_append.mp hfailure with hold | hlast
    · exact h.order failure hold
    · obtain rfl := List.mem_singleton.mp hlast
      exact h.checked login hlogin
  past failure hfailure := by
    rcases List.mem_append.mp hfailure with hold | hlast
    · exact h.past failure hold
    · obtain rfl := List.mem_singleton.mp hlast
      exact le_refl w.now
  checked other hother := h.checked other (List.mem_of_mem_erase hother)
  cleared := h.cleared
  traced failure hfailure := by
    rcases List.mem_append.mp hfailure with hold | hlast
    · exact htraced failure hold
    · obtain rfl := List.mem_singleton.mp hlast
      exact hnew
  single := h.single.sublist (List.erase_sublist.map _)
  room other hother := by
    have hmem : other ∈ w.logins := List.mem_of_mem_erase hother
    have hkey : login.key ≠ other.key := by
      intro hsame
      obtain rfl := List.inj_on_of_nodup_map h.single hlogin hmem hsame
      exact absurd hother (List.Nodup.not_mem_erase (List.Nodup.of_map _ h.single))
    intro start hstart huncleared
    have hroom := h.room other hmem start hstart huncleared
    rw [length_letThrough rfl, if_neg fun hin => hkey hin.1]
    exact hroom
  capped key start huncleared := by
    have hold := h.capped key start huncleared
    rw [length_letThrough rfl]
    split
    next hin =>
      obtain ⟨rfl, hwithin⟩ := hin
      have hroom := h.room login hlogin start hwithin huncleared
      exact_mod_cast hroom
    next => exact_mod_cast hold

theorem clear (h : Kept config w) (lower : String → String) (username : String) :
    Kept config { w with
      rows := LoginGuard.clear lower w.rows username
      clears := w.clears ++ [(normalizeUsername lower username, w.now)] } where
  rows := h.rows
  nodup := h.nodup
  order := h.order
  past := h.past
  checked := h.checked
  cleared entry hentry := by
    rcases List.mem_append.mp hentry with hold | hlast
    · exact h.cleared entry hold
    · obtain rfl := List.mem_singleton.mp hlast
      exact le_refl w.now
  traced failure hfailure :=
    (h.traced failure hfailure).cleared username (h.past failure hfailure)
  single := h.single
  room login hlogin start hstart huncleared :=
    h.room login hlogin start hstart fun entry hentry =>
      huncleared entry (List.mem_append_left _ hentry)
  capped key start huncleared :=
    h.capped key start fun entry hentry => huncleared entry (List.mem_append_left _ hentry)

/-- Every call keeps the invariant. -/
theorem step (h : Kept config w) (henabled : config.enabled = true) (hcap : 0 < config.maxAttempts)
    (event : Event) (hsound : Sound lower config w event) :
    Kept config (step lower config w event) := by
  cases event with
  | wait elapsed => exact h.wait elapsed
  | check username ip ipOnly =>
    simp only [LoginGuard.step]
    split
    · exact h
    next hpass =>
      obtain ⟨hip, hnone⟩ := not_or.mp hpass
      obtain ⟨hnew, hscan⟩ := hsound.resolve_left hip
      obtain rfl := Bool.not_eq_true _ |>.mp hip
      have hcheck := Option.not_isSome_iff_eq_none.mp hnone
      exact h.letIn hnew (room_of_check h hcheck henabled hcap hscan)
  | recordFailure username ip =>
    have hrows : recordFailure lower config w.rows w.next username ip w.now =
        LoginGuard.sweep config (w.rows ++ [attempt lower w.next username ip w.now]) w.now :=
      if_neg (not_not.mpr henabled)
    have htraced : ∀ failure ∈ w.failures,
        Traced config (recordFailure lower config w.rows w.next username ip w.now) w.clears w.now
          failure := by
      intro failure hfailure
      rw [hrows]
      refine Traced.swept ?_ hsound
      exact (h.traced failure hfailure).mono (fun _ hrow => List.mem_append_left _ hrow)
        (fun _ h => h) (le_refl w.now)
    simp only [LoginGuard.step]
    split
    next login hlogin =>
      obtain ⟨hmem, hkey⟩ := key_of_failing hlogin
      refine h.failed hmem htraced ?_
      rw [hrows]
      refine Traced.swept (.inl ⟨attempt lower w.next username ip w.now, ?_, rfl, ?_, rfl⟩) hsound
      · exact List.mem_append_right _ (List.mem_singleton_self _)
      · exact hkey.symm
    next => exact h.setRows (Nat.le_succ _) htraced
  | leave username =>
    simp only [LoginGuard.step]
    split
    next login _ => exact h.ended login
    next => exact h
  | clear username => exact h.clear lower username
  | sweep =>
    exact h.setRows (le_refl w.next) fun failure hfailure => (h.traced failure hfailure).swept hsound

end Kept

theorem kept_start (config : Config) (hcap : 0 < config.maxAttempts) (now : Instant)
    (rows : List LoginAttempt) : Kept config { now, rows } where
  rows _ h := nomatch h
  nodup := List.nodup_nil
  order _ h := nomatch h
  past _ h := nomatch h
  checked _ h := nomatch h
  cleared _ h := nomatch h
  traced _ h := nomatch h
  single := List.nodup_nil
  room _ h := nomatch h
  capped _ _ _ := hcap.le

/-- With a cap configured, no interval of the window's length lets more failed logins through, in
every run whose checks see the whole window, whose logins of one username come one after the
other, and whose sweeps take no row of the window. -/
theorem throttle_kept (lower : String → String) (config : Config) (henabled : config.enabled = true)
    (hcap : 0 < config.maxAttempts) (now : Instant) (rows : List LoginAttempt) (run : List Event)
    (hsound : (guard lower config).Along (Sound lower config) { now, rows } run) :
    (guard lower config).Always (Capped config) { now, rows } run := by
  have hkept := (guard lower config).always_of_along (I := Kept config)
    (fun w event w' h hl ht => by
      obtain rfl := Option.some.inj ht
      exact h.step henabled hcap event hl)
    (kept_start config hcap now rows) hsound
  exact (guard lower config).always_mono (fun _ h => h.capped) hkept

instance (config : Config) (rows : List LoginAttempt) (now : Instant) :
    Decidable (SweepsOld config rows now) :=
  inferInstanceAs (Decidable (∀ oldest ∈ cutoff now config.retentionMinutes, ∀ row ∈ rows, _))

instance (lower : String → String) (config : Config) (w : World) :
    ∀ event, Decidable (Sound lower config w event)
  | .check _ _ _ => inferInstanceAs (Decidable (_ ∨ _ ∧ _))
  | .recordFailure username ip =>
    inferInstanceAs (Decidable (SweepsOld config
      (w.rows ++ [attempt lower w.next username ip w.now]) w.now))
  | .sweep => inferInstanceAs (Decidable (SweepsOld config w.rows w.now))
  | .wait _ => isTrue trivial
  | .leave _ => isTrue trivial
  | .clear _ => isTrue trivial

instance (config : Config) (w : World) (key : String) (start : ℤ) :
    Decidable (Uncleared config w key start) :=
  inferInstanceAs (Decidable (∀ entry ∈ w.clears, entry.1 = key → ¬Within config start entry.2))

def twoFailures : Config := { maxAttempts := 2 }

/-- Two failures, a refusal, and another try when the window is over; then a success. -/
def guessing : List Event :=
  [.check "root" "10.0.0.9" false, .recordFailure "root" "10.0.0.9", .wait 60000000,
    .check "Root " "10.0.0.9" false, .recordFailure "Root " "10.0.0.9", .check "root" "" false,
    .wait 900000000, .check "root" "" false, .recordFailure "root" "", .sweep,
    .check "root" "" false, .clear "root", .leave "root"]

theorem throttle_kept_guessing :
    (guard Python.lower twoFailures).Always (Capped twoFailures) { now := 1700000000000000 }
      guessing :=
  throttle_kept Python.lower twoFailures (by decide) (by decide) 1700000000000000 [] guessing
    (by decide +kernel)

/-! ### A retention shorter than the window -/

def oneMinute : Config := { maxAttempts := 1, retentionMinutes := 1 }

/-- The sweep drops a failure after two minutes, and the next login is let through. -/
def sweptAway : List Event :=
  [.check "root" "" false, .recordFailure "root" "", .wait 120000000, .sweep,
    .check "root" "" false, .recordFailure "root" ""]

theorem throttle_not_kept :
    ¬∀ (lower : String → String) (config : Config), config.enabled = true → 0 < config.maxAttempts →
      ∀ (now : Instant) (rows : List LoginAttempt) (run : List Event),
        (guard lower config).Always (Capped config) { now, rows } run := by
  intro h
  have hrun := h Python.lower oneMinute (by decide) (by decide) 1700000000000000 [] sweptAway
  have hone : (guard Python.lower oneMinute).Always
      (fun w => Uncleared oneMinute w "root" 1700000000000000 →
        ((letThrough oneMinute w "root" 1700000000000000).length : ℤ) ≤ oneMinute.maxAttempts)
      { now := 1700000000000000 } sweptAway :=
    (guard Python.lower oneMinute).always_mono (fun _ hcapped => hcapped "root" 1700000000000000) hrun
  exact absurd hone (by decide +kernel)

end LoginGuard
