import Mathlib.Data.Nat.Log
import Mathlib.Tactic.Zify
import VmDashboard.Tunnels.Pool

/-!
# The network `derive_pool_cidr` picks

The largest aligned network of the requested size or less that keeps clear of every reserved address of
the subnet, and the highest of that size.
-/

namespace Tunnels
open Python (IpAddress IpNetwork Net ipNetwork prefixlen)

/-! ### Addresses of a subnet -/

/-- An address of the subnet that neither the subnet nor the cloud reserves. -/
structure Free (cloud : String) (net : Net 32) (a : ℕ) : Prop where
  inside : net.base.toNat ≤ a ∧ a < net.base.toNat + 2 ^ (32 - net.prefixlen)
  network : a ≠ net.base.toNat
  broadcast : a + 1 ≠ net.base.toNat + 2 ^ (32 - net.prefixlen)
  /-- Not one of the first hosts. -/
  head : net.base.toNat + (reservedFor cloud).1 < a
  /-- Not one of the last hosts. -/
  tail : a + (reservedFor cloud).2 + 1 < net.base.toNat + 2 ^ (32 - net.prefixlen)

/-- The network of `2 ^ k` addresses from `start` on is one, and all of it is free. -/
structure Fits (cloud : String) (net : Net 32) (start k : ℕ) : Prop where
  aligned : 2 ^ k ∣ start
  free : ∀ a, start ≤ a → a < start + 2 ^ k → Free cloud net a

/-- The largest network that fits, of the requested size rounded up or less, and the highest of them. -/
structure Best (cloud : String) (net : Net 32) (size start k : ℕ) : Prop where
  fits : Fits cloud net start k
  allowed : 2 ≤ k ∧ k ≤ Nat.clog 2 size
  largest : ∀ k' start', k' ≤ Nat.clog 2 size → Fits cloud net start' k' → k' ≤ k
  top : ∀ start', Fits cloud net start' k → start' ≤ start

theorem fits_iff {cloud : String} {net : Net 32} {start k : ℕ} :
    Fits cloud net start k ↔ 2 ^ k ∣ start ∧ net.base.toNat + (reservedFor cloud).1 < start ∧
      start + 2 ^ k + (reservedFor cloud).2 < net.base.toNat + 2 ^ (32 - net.prefixlen) := by
  have hpos : 0 < 2 ^ k := Nat.two_pow_pos k
  constructor
  · rintro ⟨haligned, hfree⟩
    have hfirst := (hfree start le_rfl (by omega)).head
    have hlast := (hfree (start + 2 ^ k - 1) (by omega) (by omega)).tail
    exact ⟨haligned, hfirst, by omega⟩
  · rintro ⟨haligned, hfirst, hlast⟩
    refine ⟨haligned, fun a hstart hend => ⟨⟨?_, ?_⟩, ?_, ?_, ?_, ?_⟩⟩ <;> omega

theorem base_dvd {w : ℕ} (net : Net w) : 2 ^ (w - net.prefixlen) ∣ net.base.toNat := by
  have hlow : ∀ i < w - net.prefixlen, net.base.getLsbD i = false := by
    intro i hi
    have hbit := congrArg (·.getLsbD i) net.masked
    simp only [Python.netmask, BitVec.getLsbD_and, BitVec.getLsbD_xor, BitVec.getLsbD_allOnes,
      BitVec.getLsbD_ushiftRight] at hbit
    rw [← hbit]
    have hhere : i < w := by omega
    have hshift : net.prefixlen + i < w := by omega
    simp [hhere, hshift]
  refine Nat.dvd_of_mod_eq_zero (Nat.eq_of_testBit_eq fun i => ?_)
  rw [Nat.testBit_mod_two_pow, Nat.zero_testBit]
  by_cases hi : i < w - net.prefixlen
  · rw [decide_eq_true hi, Bool.true_and]
    exact hlow i hi
  · rw [decide_eq_false hi, Bool.false_and]

/-- A network ends where the addresses do, or before. -/
theorem base_add_le {w : ℕ} (net : Net w) : net.base.toNat + 2 ^ (w - net.prefixlen) ≤ 2 ^ w := by
  obtain ⟨q, hq⟩ := base_dvd net
  have hbase := net.base.isLt
  have hsplit : 2 ^ w = 2 ^ (w - net.prefixlen) * 2 ^ net.prefixlen := by
    rw [← pow_add, Nat.sub_add_cancel net.prefixlen_le]
  rw [hq, hsplit] at hbase
  have hlt : q < 2 ^ net.prefixlen := Nat.lt_of_mul_lt_mul_left hbase
  calc net.base.toNat + 2 ^ (w - net.prefixlen)
      = 2 ^ (w - net.prefixlen) * (q + 1) := by rw [hq, Nat.mul_succ]
    _ ≤ 2 ^ (w - net.prefixlen) * 2 ^ net.prefixlen := Nat.mul_le_mul_left _ hlt
    _ = 2 ^ w := hsplit.symm

/-! ### The walk -/

theorem walkDown_eq {lo hi : ℤ} {k : ℕ} {start : ℤ} (h : start + 2 ^ k - 1 ≤ hi) :
    walkDown lo hi k start = if lo ≤ start then some start else none := by
  rw [walkDown, if_pos h]

/-- The walk starts at the highest aligned block that ends at `hi` or before. -/
theorem le_floor {hi t : ℤ} {k : ℕ} (haligned : 2 ^ k ∣ t) (hend : t + 2 ^ k - 1 ≤ hi) :
    t ≤ (hi + 1 - 2 ^ k) / 2 ^ k * 2 ^ k := by
  have hpos : (0 : ℤ) < 2 ^ k := Int.pow_pos (by decide)
  obtain ⟨q, rfl⟩ := haligned
  have hq : q ≤ (hi + 1 - 2 ^ k) / 2 ^ k := by
    rw [Int.le_ediv_iff_mul_le hpos, mul_comm]
    omega
  calc (2 : ℤ) ^ k * q = q * 2 ^ k := mul_comm _ _
    _ ≤ (hi + 1 - 2 ^ k) / 2 ^ k * 2 ^ k := Int.mul_le_mul_of_nonneg_right hq hpos.le

theorem floor_add_le (hi : ℤ) (k : ℕ) : (hi + 1 - 2 ^ k) / 2 ^ k * 2 ^ k + 2 ^ k - 1 ≤ hi := by
  have hpos : (0 : ℤ) < 2 ^ k := Int.pow_pos (by decide)
  have hfloor := Int.ediv_mul_le (hi + 1 - 2 ^ k) hpos.ne'
  omega

theorem highest_eq_some {lo hi s : ℤ} {k : ℕ} (h : highest lo hi k = some s) :
    2 ^ k ∣ s ∧ lo ≤ s ∧ s + 2 ^ k - 1 ≤ hi ∧
      ∀ t, 2 ^ k ∣ t → t + 2 ^ k - 1 ≤ hi → t ≤ s := by
  rw [highest, walkDown_eq (floor_add_le hi k)] at h
  split at h
  next hlo =>
    obtain rfl := Option.some.inj h
    exact ⟨Dvd.intro_left _ rfl, hlo, floor_add_le hi k, fun t => le_floor⟩
  next => cases h

theorem highest_eq_none {lo hi : ℤ} {k : ℕ} (h : highest lo hi k = none) {t : ℤ} (haligned : 2 ^ k ∣ t)
    (hlo : lo ≤ t) : hi < t + 2 ^ k - 1 := by
  rw [highest, walkDown_eq (floor_add_le hi k)] at h
  by_contra hend
  have hle := le_floor haligned (not_lt.mp hend)
  rw [if_pos (hlo.trans hle)] at h
  cases h

theorem findSome?_range' {α : Type} {f : ℕ → Option α} {n len : ℕ} {a : α}
    (h : (List.range' n len).findSome? f = some a) :
    ∃ i, n ≤ i ∧ i < n + len ∧ f i = some a ∧ ∀ j, n ≤ j → j < i → f j = none := by
  induction len generalizing n with
  | zero => cases h
  | succ len ih =>
    rw [List.range'_succ, List.findSome?_cons] at h
    cases hn : f n with
    | some b =>
      rw [hn] at h
      exact ⟨n, le_rfl, by omega, hn.trans h, fun j hj hjn => absurd hjn (by omega)⟩
    | none =>
      rw [hn] at h
      obtain ⟨i, hi, hlt, hfi, hbefore⟩ := ih h
      refine ⟨i, by omega, by omega, hfi, fun j hj hji => ?_⟩
      rcases Nat.lt_or_ge n j with hnj | hjn
      · exact hbefore j hnj hji
      · rw [Nat.le_antisymm hjn hj, hn]

/-! ### The addresses that are left -/

theorem reservedFor_cases (cloud : String) :
    reservedFor cloud = (3, 0) ∨ reservedFor cloud = (1, 1) := by
  unfold reservedFor
  split_ifs <;> simp

theorem usable_of_few {cloud : String} {net : IpNetwork} (h : (hosts net).length ≤ 2) :
    usable cloud net = [] := by
  unfold usable
  rcases reservedFor_cases cloud with hcloud | hcloud
  · rw [hcloud]
    exact List.drop_eq_nil_of_le (by omega)
  · rw [hcloud]
    refine List.take_eq_nil_iff.mpr (.inl ?_)
    rw [List.length_drop]
    omega

/-- How many hosts of a subnet the cloud leaves. -/
def left (cloud : String) (net : Net 32) : ℕ :=
  2 ^ (32 - net.prefixlen) - 2 - (reservedFor cloud).1 - (reservedFor cloud).2

theorem usable_eq (cloud : String) {net : Net 32} (h : net.prefixlen + 1 < 32) :
    usable cloud (.v4 net) = (List.range' (net.base.toNat + 1 + (reservedFor cloud).1)
      (left cloud net)).map fun n => .v4 (BitVec.ofNat 32 n) := by
  have hhosts : hosts (.v4 net) = (List.range' (net.base.toNat + 1)
      (2 ^ (32 - net.prefixlen) - 2)).map fun n => .v4 (BitVec.ofNat 32 n) := by
    dsimp only [hosts, hostNumbers]
    rw [if_neg (by omega), if_neg (by omega), Nat.sub_sub]
  unfold usable left
  rw [hhosts]
  obtain ⟨head, tail⟩ := reservedFor cloud
  dsimp only
  rw [← List.map_drop, List.drop_range', Nat.mul_one]
  split
  next htail => rw [htail, Nat.sub_zero]
  next =>
    rw [List.length_map, List.length_range', ← List.map_take,
      List.take_range'_of_length_ge (Nat.sub_le _ _)]

theorem number_v4 {n : ℕ} (h : n < 2 ^ 32) : number (.v4 (BitVec.ofNat 32 n)) = n :=
  Nat.mod_eq_of_lt h

/-- The search for the first prefix length with a block between the two ends. -/
def search (net : Net 32) (size : ℕ) (lo hi : ℤ) : String :=
  ((List.range' (ideal (.v4 net) size) (31 - ideal (.v4 net) size)).findSome? fun bits =>
    (highest lo hi (32 - bits)).map fun start => cidrText start bits).getD ""

theorem derivePoolCidr_eq {subnetCidr : String} (cloud : String) {net : Net 32} (size : ℕ)
    (hnet : ipNetwork subnetCidr = some (.v4 net)) :
    derivePoolCidr subnetCidr cloud size =
      if net.prefixlen + 1 < 32 ∧ left cloud net ≠ 0 then
        search net size (net.base.toNat + 1 + (reservedFor cloud).1 : ℕ)
          (net.base.toNat + (reservedFor cloud).1 + left cloud net : ℕ)
      else "" := by
  unfold derivePoolCidr
  rw [hnet]
  dsimp only
  by_cases hlong : net.prefixlen + 1 < 32
  · rw [usable_eq cloud hlong, List.head?_map, List.getLast?_map, List.head?_range',
      List.getLast?_range']
    by_cases hleft : left cloud net = 0
    · rw [if_pos hleft, if_pos hleft, if_neg fun h : _ ∧ left cloud net ≠ 0 => h.2 hleft]
      rfl
    · have hend := base_add_le net
      have hcount : left cloud net + 2 + (reservedFor cloud).1 + (reservedFor cloud).2 =
          2 ^ (32 - net.prefixlen) := by
        unfold left at hleft ⊢
        omega
      rw [if_neg hleft, if_neg hleft, if_pos ⟨hlong, hleft⟩]
      simp only [Option.map_some]
      rw [number_v4 (by omega), number_v4 (by omega)]
      have hlast : net.base.toNat + 1 + (reservedFor cloud).1 + left cloud net - 1 =
          net.base.toNat + (reservedFor cloud).1 + left cloud net := by omega
      rw [hlast]
      rfl
  · have hfew : (hosts (.v4 net)).length ≤ 2 := by
      dsimp only [hosts, hostNumbers]
      rw [List.length_map]
      split
      · exact Nat.le_succ 1
      · rw [if_pos (by have := net.prefixlen_le; omega)]
        exact le_rfl
    rw [usable_of_few hfew, if_neg fun h : _ ∧ _ => hlong h.1]
    rfl

theorem clog_eq_size {size : ℕ} (h : 3 ≤ size) : Nat.clog 2 size = (max (size - 1) 1).size := by
  refine Nat.le_antisymm ?_ ?_
  · rw [Nat.clog_le_iff_le_pow (by decide)]
    have hlt := Nat.lt_size_self (max (size - 1) 1)
    omega
  · rw [Nat.size_le]
    have hle := Nat.le_pow_clog (by decide : 1 < 2) size
    omega

theorem cidrText_v4 {start k : ℕ} (h : start < 2 ^ 32) :
    cidrText start k = (IpAddress.v4 (BitVec.ofNat 32 start)).text ++ "/" ++ toString k := by
  rw [cidrText, Int.toNat_natCast, addressOfInt, if_pos h]

theorem cidrText_ne (start : ℤ) (bits : ℕ) : cidrText start bits ≠ "" := by
  intro h
  have hslash := congrArg String.toList h
  rw [cidrText, String.toList_append, String.toList_append] at hslash
  exact absurd hslash (by simp)

section
variable {cloud : String} {net : Net 32} {size : ℕ}

theorem start_lt {start k : ℕ} (h : Fits cloud net start k) : start < 2 ^ 32 := by
  have hlast := (fits_iff.mp h).2.2
  have hend := base_add_le net
  have hpos := Nat.two_pow_pos k
  omega

/-- A network that fits is one of the blocks the search looks at. -/
theorem fits_left {start k : ℕ} (hk : 2 ≤ k) (h : Fits cloud net start k) :
    net.prefixlen + 1 < 32 ∧ left cloud net ≠ 0 ∧ k ≤ 32 - net.prefixlen ∧
      net.base.toNat + 1 + (reservedFor cloud).1 ≤ start ∧
      start + 2 ^ k ≤ net.base.toNat + (reservedFor cloud).1 + left cloud net + 1 := by
  obtain ⟨-, hfirst, hlast⟩ := fits_iff.mp h
  have hfour : 2 ^ 2 ≤ 2 ^ k := Nat.pow_le_pow_right (by decide) hk
  have hwide : 2 ^ 2 ≤ 2 ^ (32 - net.prefixlen) := by omega
  have hlength : 2 ≤ 32 - net.prefixlen := (Nat.pow_le_pow_iff_right (by decide)).mp hwide
  have hsize : k ≤ 32 - net.prefixlen :=
    (Nat.pow_le_pow_iff_right (by decide)).mp (by omega : 2 ^ k ≤ _)
  unfold left
  exact ⟨by omega, by omega, hsize, by omega, by omega⟩

theorem not_highest_eq_none {start k : ℕ} (hk : 2 ≤ k) (h : Fits cloud net start k) :
    highest (net.base.toNat + 1 + (reservedFor cloud).1 : ℕ)
      (net.base.toNat + (reservedFor cloud).1 + left cloud net : ℕ) k ≠ none := by
  intro hnone
  obtain ⟨-, -, -, hfirst, hlast⟩ := fits_left hk h
  have haligned : (2 : ℤ) ^ k ∣ (start : ℤ) := by exact_mod_cast h.aligned
  have hafter := highest_eq_none hnone haligned (Int.ofNat_le.mpr hfirst)
  have hlast' : (start : ℤ) + 2 ^ k ≤
      (net.base.toNat + (reservedFor cloud).1 + left cloud net : ℕ) + 1 := by
    exact_mod_cast hlast
  omega

/-- The prefix lengths that are searched are those of the sizes allowed. -/
theorem ideal_le {k : ℕ} (hsize : 3 ≤ size) (hcidr : k ≤ 32 - net.prefixlen)
    (hallowed : k ≤ Nat.clog 2 size) : ideal (.v4 net) size ≤ 32 - k := by
  rw [clog_eq_size hsize] at hallowed
  have hlength := net.prefixlen_le
  exact Nat.max_le.mpr ⟨by dsimp only [prefixlen]; omega, by dsimp only [maxPrefixlen]; omega⟩

theorem le_clog_of_ideal_le {bits : ℕ} (hsize : 3 ≤ size) (h : ideal (.v4 net) size ≤ bits) :
    32 - bits ≤ Nat.clog 2 size := by
  rw [clog_eq_size hsize]
  have hle := (Nat.max_le.mp h).2
  dsimp only [maxPrefixlen] at hle
  omega

theorem search_best (hsize : 3 ≤ size) {found : String}
    (h : search net size (net.base.toNat + 1 + (reservedFor cloud).1 : ℕ)
      (net.base.toNat + (reservedFor cloud).1 + left cloud net : ℕ) = found) :
    (found = "" ∧ ∀ k start, 2 ≤ k → k ≤ Nat.clog 2 size → ¬Fits cloud net start k) ∨
      ∃ start k, found = (IpAddress.v4 (BitVec.ofNat 32 start)).text ++ "/" ++ toString (32 - k) ∧
        Best cloud net size start k := by
  have hnone {bits k start : ℕ} (hk : 2 ≤ k) (hfits : Fits cloud net start k)
      (hbits : 32 - k = bits) : ((highest (net.base.toNat + 1 + (reservedFor cloud).1 : ℕ)
        (net.base.toNat + (reservedFor cloud).1 + left cloud net : ℕ) (32 - bits)).map
          fun start => cidrText start bits) ≠ none := by
    obtain ⟨hlong, -, hcidr, -⟩ := fits_left hk hfits
    have hback : 32 - bits = k := by omega
    rw [hback, Ne, Option.map_eq_none_iff]
    exact not_highest_eq_none hk hfits
  unfold search at h
  cases hsearch : (List.range' (ideal (.v4 net) size) (31 - ideal (.v4 net) size)).findSome? fun bits =>
      (highest (net.base.toNat + 1 + (reservedFor cloud).1 : ℕ)
        (net.base.toNat + (reservedFor cloud).1 + left cloud net : ℕ) (32 - bits)).map
          fun start => cidrText start bits with
  | none =>
    rw [hsearch] at h
    refine .inl ⟨h.symm, fun k start hk hallowed hfits => ?_⟩
    obtain ⟨hlong, -, hcidr, -⟩ := fits_left hk hfits
    have hfirst : ideal (.v4 net) size ≤ 32 - k := ideal_le hsize hcidr hallowed
    refine hnone hk hfits rfl (List.findSome?_eq_none_iff.mp hsearch (32 - k) ?_)
    exact List.mem_range'_1.mpr ⟨hfirst, by omega⟩
  | some cidr =>
    rw [hsearch] at h
    obtain ⟨bits, hideal, hlast, hfound, hbefore⟩ := findSome?_range' hsearch
    obtain ⟨s, hs, hcidr⟩ := Option.map_eq_some_iff.mp hfound
    obtain ⟨haligned, hlo, hhi, htop⟩ := highest_eq_some hs
    lift s to ℕ using by omega
    have hfits : Fits cloud net s (32 - bits) := by
      have hend : s + 2 ^ (32 - bits) ≤
          net.base.toNat + (reservedFor cloud).1 + left cloud net + 1 := by
        zify
        push_cast at hhi
        omega
      have hpos := Nat.two_pow_pos (32 - bits)
      refine fits_iff.mpr ⟨by exact_mod_cast haligned, by omega, ?_⟩
      unfold left at hend
      omega
    have hsmall : s < 2 ^ 32 := start_lt hfits
    refine .inr ⟨s, 32 - bits, ?_, hfits, ⟨by omega, le_clog_of_ideal_le hsize hideal⟩,
      fun k' start' hallowed hfits' => ?_, fun start' hfits' => ?_⟩
    · have hback : 32 - (32 - bits) = bits := by omega
      rw [hback, ← h, ← hcidr]
      exact cidrText_v4 hsmall
    · by_contra hlarger
      have hk' : 2 ≤ k' := by omega
      obtain ⟨hlong, -, hcidr', -⟩ := fits_left hk' hfits'
      exact hnone hk' hfits' rfl (hbefore (32 - k') (ideal_le hsize hcidr' hallowed) (by omega))
    · obtain ⟨-, -, -, -, hend⟩ := fits_left (by omega) hfits'
      have hle := htop start' (by exact_mod_cast hfits'.aligned) (by zify at hend; push_cast; omega)
      exact_mod_cast hle

end

/-- For every subnet and cloud and every size of at least 3. -/
theorem derivePoolCidr_best {subnetCidr : String} (cloud : String) {net : Net 32} {size : ℕ}
    (hnet : ipNetwork subnetCidr = some (.v4 net)) (hsize : 3 ≤ size) :
    (derivePoolCidr subnetCidr cloud size = "" ↔
      ∀ k start, 2 ≤ k → k ≤ Nat.clog 2 size → ¬Fits cloud net start k) ∧
    (derivePoolCidr subnetCidr cloud size ≠ "" → ∃ start k,
      derivePoolCidr subnetCidr cloud size =
        (IpAddress.v4 (BitVec.ofNat 32 start)).text ++ "/" ++ toString (32 - k) ∧
      Best cloud net size start k) := by
  have hcases : (derivePoolCidr subnetCidr cloud size = "" ∧
      ∀ k start, 2 ≤ k → k ≤ Nat.clog 2 size → ¬Fits cloud net start k) ∨
      ∃ start k, derivePoolCidr subnetCidr cloud size =
        (IpAddress.v4 (BitVec.ofNat 32 start)).text ++ "/" ++ toString (32 - k) ∧
        Best cloud net size start k := by
    rw [derivePoolCidr_eq cloud size hnet]
    split
    · exact search_best hsize rfl
    next hnowhere =>
      refine .inl ⟨rfl, fun k start hk _ hfits => hnowhere ?_⟩
      obtain ⟨hlong, hleft, -⟩ := fits_left hk hfits
      exact ⟨hlong, hleft⟩
  rcases hcases with ⟨hempty, hnone⟩ | ⟨start, k, hcidr, hbest⟩
  · exact ⟨iff_of_true hempty hnone, fun hne => absurd hempty hne⟩
  · have hne : derivePoolCidr subnetCidr cloud size ≠ "" := by
      rw [hcidr, ← cidrText_v4 (start_lt hbest.fits)]
      exact cidrText_ne _ _
    exact ⟨iff_of_false hne fun hnone => hnone k start hbest.allowed.1 hbest.allowed.2 hbest.fits,
      fun _ => ⟨start, k, hcidr, hbest⟩⟩

/-- Under the second to last address of the subnet, which Google keeps. -/
theorem derivePoolCidr_slash24 : ∃ net : Net 32, ∃ start k,
    derivePoolCidr "10.99.5.0/24" "gcp" 8 =
      (IpAddress.v4 (BitVec.ofNat 32 start)).text ++ "/" ++ toString (32 - k) ∧
    Best "gcp" net 8 start k := by
  have hnet : ipNetwork "10.99.5.0/24" = some (.v4 (Net.of 0x0A630500 24 (by decide))) := by
    decide +kernel
  have hne : derivePoolCidr "10.99.5.0/24" "gcp" 8 ≠ "" := by decide +kernel
  exact ⟨_, (derivePoolCidr_best "gcp" hnet (by decide)).2 hne⟩

end Tunnels
