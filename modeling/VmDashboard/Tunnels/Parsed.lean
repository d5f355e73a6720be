import Mathlib.Data.List.GetD
import Mathlib.Data.List.Sort
import Mathlib.Data.List.TakeWhile
import VmDashboard.Tunnels.Derived

/-!
# What `parse_pool` makes of a specification

It raises on a range whose ends are of two families, writes an IPv6 range from its start as IPv4 while
the numbers are below `2 ^ 32`, and takes the hyphen of a zone id for a range. On every other
specification it returns the first of the addresses it denotes.
-/

namespace Tunnels
open Python (IpAddress IpNetwork Net ipAddress ipNetwork strip lower)

/-! ### What a specification denotes -/

def Ascending (addresses : List IpAddress) : Prop :=
  addresses.Pairwise fun a b => number a < number b

/-- A host of a block: each of its addresses, but neither the first nor, for IPv4, the last of a block
of more than two. -/
def IsHost : IpNetwork → IpAddress → Prop
  | .v4 net, address => ∃ n, address = .v4 (BitVec.ofNat 32 n) ∧ net.base.toNat ≤ n ∧
      n < net.base.toNat + 2 ^ (32 - net.prefixlen) ∧
      (net.prefixlen + 1 < 32 →
        n ≠ net.base.toNat ∧ n + 1 ≠ net.base.toNat + 2 ^ (32 - net.prefixlen))
  | .v6 net scope, address =>
    ∃ n, address = .v6 (BitVec.ofNat 128 n) (if net.prefixlen = 128 then scope else none) ∧
      net.base.toNat ≤ n ∧ n < net.base.toNat + 2 ^ (128 - net.prefixlen) ∧
      (net.prefixlen + 1 < 128 → n ≠ net.base.toNat)

/-- The address of a number, in the family of another. -/
def inFamily : IpAddress → ℕ → IpAddress
  | .v4 _, n => .v4 (BitVec.ofNat 32 n)
  | .v6 _ _, n => .v6 (BitVec.ofNat 128 n) none

inductive Denotes (spec : String) (addresses : List IpAddress) : Prop
  | address {address : IpAddress} (parsed : ipAddress spec = some address)
      (only : addresses = [address])
  | block {net : IpNetwork} (slash : '/' ∈ spec.toList) (parsed : ipNetwork spec = some net)
      (ascending : Ascending addresses) (mem : ∀ a, a ∈ addresses ↔ IsHost net a)
  | range {lo hi : IpAddress} (first : ipAddress (splitRange spec).1 = some lo)
      (second : ipAddress (splitRange spec).2 = some hi) (family : sameFamily lo hi)
      (ascending : Ascending addresses)
      (mem : ∀ a, a ∈ addresses ↔ ∃ n, a = inFamily lo n ∧
        min (number lo) (number hi) ≤ n ∧ n ≤ max (number lo) (number hi))

/-- The specifications that are expanded exactly. -/
structure Exact (spec : String) : Prop where
  /-- The ends of a range are of one family. -/
  families : ∀ lo hi, ipAddress (splitRange spec).1 = some lo →
    ipAddress (splitRange spec).2 = some hi → sameFamily lo hi
  /-- An IPv6 range starts at `::1:0:0` or above. -/
  above : ∀ lo hi, ipAddress (splitRange spec).1 = some lo →
    ipAddress (splitRange spec).2 = some hi → (∃ ip scope, lo = .v6 ip scope) →
    2 ^ 32 ≤ min (number lo) (number hi)
  /-- No zone id has a hyphen. -/
  zones : '-' ∈ spec.toList → ipAddress spec = none ∧ ('/' ∈ spec.toList → ipNetwork spec = none)

/-! ### Texts of addresses -/

theorem digitChar_of_mem {b n : ℕ} (hb : 1 < b) {c : Char} (h : c ∈ Nat.toDigits b n) :
    ∃ d, c = Nat.digitChar d := by
  induction n using Nat.strongRecOn with
  | ind n ih =>
    rw [Nat.toDigits_eq_if hb] at h
    split at h
    · exact ⟨n, List.mem_singleton.mp h⟩
    next hn =>
      rcases List.mem_append.mp h with hmore | hlast
      · exact ih (n / b) (Nat.div_lt_self (by omega) hb) hmore
      · exact ⟨n % b, List.mem_singleton.mp hlast⟩

theorem digitChar_ne (d : ℕ) : Nat.digitChar d ≠ ':' ∧ Nat.digitChar d ≠ '%' := by
  rcases Nat.lt_or_ge d 16 with hlt | hge
  · have hall : ∀ d < 16, Nat.digitChar d ≠ ':' ∧ Nat.digitChar d ≠ '%' := by decide
    exact hall d hlt
  · rw [Nat.digitChar_eq_star.mpr hge]
    decide

theorem mem_intercalate {c : Char} {sep : List Char} {parts : List (List Char)}
    (h : c ∈ sep.intercalate parts) : c ∈ sep ∨ ∃ part ∈ parts, c ∈ part := by
  induction parts with
  | nil => cases h
  | cons part parts ih =>
    cases parts with
    | nil => exact .inr ⟨part, List.mem_cons_self, by simpa [List.intercalate] using h⟩
    | cons next parts =>
      rw [List.intercalate_cons_cons, List.mem_append, List.mem_append] at h
      rcases h with (hpart | hsep) | hrest
      · exact .inr ⟨part, List.mem_cons_self, hpart⟩
      · exact .inl hsep
      · rcases ih hrest with hsep | ⟨other, hother, hc⟩
        · exact .inl hsep
        · exact .inr ⟨other, List.mem_cons_of_mem part hother, hc⟩

theorem mem_ipv4Text {ip : BitVec 32} {c : Char} (h : c ∈ (Python.ipv4Text ip).toList) :
    c = '.' ∨ ∃ d, c = Nat.digitChar d := by
  rw [Python.ipv4Text, String.toList_intercalate] at h
  rcases mem_intercalate h with hdot | ⟨part, hpart, hc⟩
  · exact .inl (List.mem_singleton.mp hdot)
  · obtain ⟨text, htext, rfl⟩ := List.mem_map.mp hpart
    obtain ⟨n, -, rfl⟩ := List.mem_map.mp htext
    rw [Nat.toString_eq_ofList_toDigits, String.toList_ofList] at hc
    exact .inr (digitChar_of_mem (by decide) hc)

/-- Some hextets, as `ipv6Text` writes them. -/
def hextetText (part : List ℕ) : String :=
  ":".intercalate (part.map fun n => String.ofList (Nat.toDigits 16 n))

theorem mem_hextetText {part : List ℕ} {c : Char} (h : c ∈ (hextetText part).toList) :
    c = ':' ∨ ∃ d, c = Nat.digitChar d := by
  rw [hextetText, String.toList_intercalate] at h
  rcases mem_intercalate h with hcolon | ⟨digits, hdigits, hc⟩
  · exact .inl (List.mem_singleton.mp hcolon)
  · obtain ⟨text, htext, rfl⟩ := List.mem_map.mp hdigits
    obtain ⟨n, -, rfl⟩ := List.mem_map.mp htext
    rw [String.toList_ofList] at hc
    exact .inr (digitChar_of_mem (by decide) hc)

theorem ipv6Text_cases (ip : BitVec 128) :
    (∃ a b rest, Python.ipv6Text ip = hextetText (a :: b :: rest)) ∨
      ∃ before after, Python.ipv6Text ip = hextetText before ++ "::" ++ hextetText after := by
  unfold Python.ipv6Text
  dsimp only
  split
  · exact .inl ⟨_, _, _, rfl⟩
  · exact .inr ⟨_, _, rfl⟩

theorem mem_ipv6Text {ip : BitVec 128} {c : Char} (h : c ∈ (Python.ipv6Text ip).toList) :
    c = ':' ∨ ∃ d, c = Nat.digitChar d := by
  rcases ipv6Text_cases ip with ⟨a, b, rest, htext⟩ | ⟨before, after, htext⟩
  · exact mem_hextetText (htext ▸ h)
  · rw [htext, String.toList_append, String.toList_append, List.mem_append, List.mem_append] at h
    rcases h with (hbefore | hcolons) | hafter
    · exact mem_hextetText hbefore
    · have htwo : "::".toList = [':', ':'] := rfl
      rw [htwo, List.mem_cons, List.mem_singleton, or_self] at hcolons
      exact .inl hcolons
    · exact mem_hextetText hafter

theorem colon_mem_ipv6Text (ip : BitVec 128) : ':' ∈ (Python.ipv6Text ip).toList := by
  rcases ipv6Text_cases ip with ⟨a, b, rest, htext⟩ | ⟨before, after, htext⟩
  · rw [htext, hextetText, String.toList_intercalate, List.map_cons, List.map_cons, List.map_cons,
      List.map_cons, List.intercalate_cons_cons]
    exact List.mem_append_left _ (List.mem_append_right _ List.mem_cons_self)
  · rw [htext, String.toList_append, String.toList_append]
    exact List.mem_append_left _ (List.mem_append_right _ List.mem_cons_self)

/-- The two families are told apart by their texts. -/
theorem text_v4_ne_v6 (ip : BitVec 32) (ip' : BitVec 128) (scope : Option String) :
    (IpAddress.v4 ip).text ≠ (IpAddress.v6 ip' scope).text := by
  intro h
  have hcolon : ':' ∈ (IpAddress.v6 ip' scope).text.toList := by
    rw [IpAddress.text, String.toList_append]
    exact List.mem_append_left _ (colon_mem_ipv6Text ip')
  rw [← h] at hcolon
  rcases mem_ipv4Text hcolon with hdot | ⟨d, hd⟩
  · exact absurd hdot (by decide)
  · exact (digitChar_ne d).1 hd.symm

/-- A number's text has no zone id. -/
theorem percent_notMem (n : ℕ) : '%' ∉ (addressOfInt n).text.toList := by
  intro h
  have hnone {c : Char} (hc : c = ':' ∨ c = '.' ∨ ∃ d, c = Nat.digitChar d) : c ≠ '%' := by
    rcases hc with rfl | rfl | ⟨d, rfl⟩
    · decide
    · decide
    · exact (digitChar_ne d).2
  unfold addressOfInt at h
  split at h
  · exact hnone (.inr (mem_ipv4Text h)) rfl
  · rw [IpAddress.text, Option.elim_none, String.toList_append, List.mem_append] at h
    rcases h with h | h
    · exact hnone ((mem_ipv6Text h).imp_right .inr) rfl
    · cases h

theorem notMem_octet {c : Char} (hdigit : Python.isAsciiDigit c = false) {part : List Char} {n : ℕ}
    (h : Python.parseOctet part = some n) : c ∉ part := by
  intro hc
  have hall : part.all Python.isAsciiDigit = false :=
    List.all_eq_false.mpr ⟨c, hc, Bool.eq_false_iff.mp hdigit⟩
  simp [Python.parseOctet, hall] at h

theorem hyphen_notMem_hextet {part : List Char} {n : ℕ} (h : Python.parseHextet part = some n) :
    '-' ∉ part := by
  intro hc
  have hall : part.all Python.isHexDigit = false := List.all_eq_false.mpr ⟨'-', hc, by decide⟩
  simp [Python.parseHextet, hall] at h

/-- A character other than the separator is in one of the parts. -/
theorem mem_splitOn (separator : Char) {c : Char} {cs : List Char} (h : c ∈ cs)
    (hne : c ≠ separator) :
    ∃ part ∈ cs.splitOn separator, c ∈ part := by
  have hjoin : [separator].intercalate (cs.splitOn separator) = cs := List.intercalate_splitOn separator
  rw [← hjoin] at h
  rcases mem_intercalate h with hsep | hpart
  · exact absurd (List.mem_singleton.mp hsep) hne
  · exact hpart

/-- The text of an IPv4 address has digits and dots only. -/
theorem notMem_ipv4 {c : Char} (hdot : c ≠ '.') (hdigit : Python.isAsciiDigit c = false)
    {cs : List Char} {ip : BitVec 32} (h : Python.ipv4FromString cs = some ip) : c ∉ cs := by
  intro hmem
  obtain ⟨part, hpart, hin⟩ := mem_splitOn '.' hmem hdot
  unfold Python.ipv4FromString at h
  split at h
  next a b c d hsplit =>
    rw [hsplit] at hpart
    simp only [Option.bind_eq_bind, Option.bind_eq_some_iff] at h
    obtain ⟨_, ha, _, hb, _, hc, _, hd, -⟩ := h
    simp only [List.mem_cons, List.not_mem_nil, or_false] at hpart
    rcases hpart with rfl | rfl | rfl | rfl
    · exact notMem_octet hdigit ha hin
    · exact notMem_octet hdigit hb hin
    · exact notMem_octet hdigit hc hin
    · exact notMem_octet hdigit hd hin
  next => cases h

theorem mem_expandSuffix {parts out : List (List Char)} (h : Python.expandSuffix parts = some out)
    {part : List Char} (hpart : part ∈ parts) (hhyphen : '-' ∈ part) : part ∈ out := by
  unfold Python.expandSuffix at h
  split at h
  · cases h
  next last hlast =>
    split at h
    · obtain ⟨ip, hip, rfl⟩ := Option.map_eq_some_iff.mp h
      rw [← List.dropLast_append_getLast? last hlast, List.mem_append, List.mem_singleton] at hpart
      rcases hpart with hpart | rfl
      · exact List.mem_append_left _ hpart
      · exact absurd hhyphen (notMem_ipv4 (by decide) (by decide) hip)
    · exact Option.some.inj h ▸ hpart

/-- The parts that are not read are empty. -/
theorem mem_partCounts {parts : List (List Char)} {hi lo skipped : ℕ}
    (h : Python.partCounts parts = some (hi, lo, skipped)) {part : List Char} (hpart : part ∈ parts)
    (hne : part ≠ []) : part ∈ parts.take hi ∨ part ∈ parts.drop (parts.length - lo) := by
  obtain ⟨i, hi', rfl⟩ := List.getElem_of_mem hpart
  unfold Python.partCounts at h
  dsimp only at h
  split at h
  next =>
    split at h
    · cases h
    next hcount =>
      have height : parts.length = 8 := by simp at hcount; exact hcount.1.1
      obtain ⟨rfl, -⟩ := Prod.mk.inj (Option.some.inj h)
      exact .inl ((List.take_of_length_le height.le).symm ▸ hpart)
  next skip hinner =>
    have hskip := List.mem_filter.mp (hinner ▸ List.mem_singleton_self skip)
    simp only [Bool.and_eq_true, decide_eq_true_eq] at hskip
    obtain ⟨-, ⟨hfirst, hlast⟩, hempty⟩ := hskip
    rw [List.getD_eq_getElem _ _ (by omega)] at hempty
    have hither : i ≠ skip := by
      rintro rfl
      exact hne hempty
    split at h
    · cases h
    next hhead =>
      split at h
      · cases h
      next htail =>
        obtain ⟨-, hsome⟩ := Option.ite_none_left_eq_some.mp h
        obtain ⟨rfl, hlo⟩ := Prod.mk.inj (Option.some.inj hsome)
        obtain ⟨rfl, -⟩ := Prod.mk.inj hlo
        rcases Nat.lt_or_gt_of_ne hither with hbefore | hafter
        · left
          have hnot : parts.head? ≠ some [] := by
            intro hnil
            have hone : skip = 1 := by simpa [hnil] using hhead
            obtain rfl : i = 0 := by omega
            rw [List.head?_eq_getElem?, List.getElem?_eq_getElem hi'] at hnil
            exact hne (Option.some.inj hnil)
          rw [if_neg hnot]
          exact List.mem_take_iff_getElem.mpr ⟨i, by omega, rfl⟩
        · right
          have hnot : parts.getLast? ≠ some [] := by
            intro hnil
            have hone : parts.length - skip - 1 = 1 := by simpa [hnil] using htail
            obtain rfl : i = parts.length - 1 := by omega
            rw [List.getLast?_eq_getElem?, List.getElem?_eq_getElem hi'] at hnil
            exact hne (Option.some.inj hnil)
          rw [if_neg hnot]
          exact List.mem_drop_iff_getElem.mpr ⟨i - (skip + 1), by omega, by congr 1; omega⟩
  next => cases h

theorem exists_of_mapM {α β : Type} {f : α → Option β} {xs : List α} {ys : List β}
    (h : xs.mapM f = some ys) {x : α} (hx : x ∈ xs) : ∃ y, f x = some y := by
  induction xs generalizing ys with
  | nil => cases hx
  | cons first xs ih =>
    simp only [List.mapM_cons, Option.bind_eq_bind, Option.bind_eq_some_iff] at h
    obtain ⟨y, hy, rest, hrest, -⟩ := h
    rcases List.mem_cons.mp hx with rfl | hx
    · exact ⟨y, hy⟩
    · exact ih hrest hx

theorem hyphen_notMem_ipv6 {cs : List Char} {ip : BitVec 128} (h : Python.ipv6FromString cs = some ip) :
    '-' ∉ cs := by
  intro hc
  obtain ⟨part, hpart, hhyphen⟩ := mem_splitOn ':' hc (by decide)
  unfold Python.ipv6FromString at h
  dsimp only at h
  split at h
  · cases h
  simp only [Option.bind_eq_bind, Option.bind_eq_some_iff] at h
  obtain ⟨parts, hparts, h⟩ := h
  split at h
  · cases h
  simp only [Option.bind_eq_some_iff] at h
  obtain ⟨⟨hi, lo, skipped⟩, hcounts, before, hbefore, after, hafter, -⟩ := h
  have hne : part ≠ [] := List.ne_nil_of_mem hhyphen
  rcases mem_partCounts hcounts (mem_expandSuffix hparts hpart hhyphen) hne with hmem | hmem
  · obtain ⟨n, hn⟩ := exists_of_mapM hbefore hmem
    exact hyphen_notMem_hextet hn hhyphen
  · obtain ⟨n, hn⟩ := exists_of_mapM hafter hmem
    exact hyphen_notMem_hextet hn hhyphen

/-! ### What an address is written with -/

theorem splitScopeId_eq_some {cs addr : List Char} {scope : Option String}
    (h : Python.splitScopeId cs = some (addr, scope)) :
    (scope = none ∧ addr = cs) ∨ ∃ id rest, scope = some id ∧ cs = addr ++ '%' :: rest := by
  unfold Python.splitScopeId at h
  rw [List.span_eq_takeWhile_dropWhile] at h
  have hcut := List.takeWhile_append_dropWhile (p := (· ≠ '%')) (l := cs)
  split at h
  next =>
    obtain ⟨rfl, rfl⟩ := Prod.mk.inj (Option.some.inj h)
    exact .inl ⟨rfl, rfl⟩
  next before c rest hspan =>
    split at h
    · cases h
    obtain ⟨rfl, rfl⟩ := Prod.mk.inj (Option.some.inj h)
    obtain ⟨hbefore, hafter⟩ := Prod.mk.inj hspan
    have hc : c = '%' := by
      have hhead := List.head?_dropWhile_not (· ≠ '%') cs
      rw [hafter] at hhead
      simpa using hhead
    refine .inr ⟨_, rest, rfl, ?_⟩
    rw [← hcut, hbefore, hafter, hc]

theorem ipAddress_eq_some {text : String} {a : IpAddress} (h : ipAddress text = some a) :
    '/' ∉ text.toList ∧ ((∃ ip, a = .v4 ip ∧ Python.ipv4FromString text.toList = some ip) ∨
      ∃ addr ip scope, a = .v6 ip scope ∧ Python.splitScopeId text.toList = some (addr, scope) ∧
        Python.ipv6FromString addr = some ip) := by
  unfold ipAddress Python.ipv4Address Python.ipv6Address at h
  by_cases hslash : text.toList.contains '/'
  · rw [if_pos hslash, if_pos hslash] at h
    cases h
  · have hnot : '/' ∉ text.toList := fun hmem => hslash (List.contains_iff_mem.mpr hmem)
    refine ⟨hnot, ?_⟩
    simp only [if_neg hslash] at h
    split at h
    next ip hip => exact .inl ⟨ip, (Option.some.inj h).symm, hip⟩
    next =>
      obtain ⟨⟨ip, scope⟩, hparsed, rfl⟩ := Option.map_eq_some_iff.mp h
      simp only [Option.bind_eq_bind, Option.bind_eq_some_iff] at hparsed
      obtain ⟨⟨addr, scope'⟩, hsplit, ip', hip, hboth⟩ := hparsed
      obtain ⟨rfl, rfl⟩ := Prod.mk.inj (Option.some.inj hboth)
      exact .inr ⟨addr, ip', scope', rfl, hsplit, hip⟩

/-- An address with a hyphen has it in its zone id, which its text keeps. -/
theorem percent_mem {text : String} {a : IpAddress} (h : ipAddress text = some a)
    (hhyphen : '-' ∈ text.toList) : '%' ∈ a.text.toList := by
  obtain ⟨-, ⟨ip, rfl, hip⟩ | ⟨addr, ip, scope, rfl, hsplit, hip⟩⟩ := ipAddress_eq_some h
  · exact absurd hhyphen (notMem_ipv4 (by decide) (by decide) hip)
  · rcases splitScopeId_eq_some hsplit with ⟨-, rfl⟩ | ⟨id, rest, rfl, -⟩
    · exact absurd hhyphen (hyphen_notMem_ipv6 hip)
    · rw [IpAddress.text, Option.elim_some, String.toList_append, String.toList_append]
      exact List.mem_append_right _ (List.mem_append_left _ List.mem_cons_self)

theorem dot_or_colon_mem {text : String} {a : IpAddress} (h : ipAddress text = some a) :
    '.' ∈ text.toList ∨ ':' ∈ text.toList := by
  obtain ⟨-, ⟨ip, -, hip⟩ | ⟨addr, ip, scope, -, hsplit, hip⟩⟩ := ipAddress_eq_some h
  · left
    by_contra hdot
    rw [Python.ipv4FromString, List.splitOn_eq_singleton hdot] at hip
    cases hip
  · right
    have hcolon : ':' ∈ addr := by
      by_contra hcolon
      rw [Python.ipv6FromString, List.splitOn_eq_singleton hcolon] at hip
      cases hip
    rcases splitScopeId_eq_some hsplit with ⟨-, rfl⟩ | ⟨id, rest, -, htext⟩
    · exact hcolon
    · exact htext ▸ List.mem_append_left _ hcolon

/-- A specification with a separator is neither blank nor `off`. -/
theorem not_skipped {text : String} {c : Char} (h : c ∈ text.toList) (hlower : Python.lowerChar c = [c])
    (hoff : c ∉ disabled.toList) : ¬(text = "" ∨ lower text = disabled) := by
  rintro (rfl | hdisabled)
  · cases h
  · refine hoff (hdisabled ▸ ?_)
    rw [lower, String.toList_ofList]
    exact Python.mem_lowerChars h hlower []

theorem mem_dropWhile_of_not {p : Char → Bool} {c : Char} {cs : List Char} (h : c ∈ cs)
    (hp : p c = false) : c ∈ cs.dropWhile p := by
  rw [← List.takeWhile_append_dropWhile (p := p) (l := cs), List.mem_append] at h
  rcases h with h | h
  · exact absurd (List.mem_takeWhile_imp h) (by simp [hp])
  · exact h

theorem mem_strip (text : String) {c : Char} (h : c ∈ text.toList) (hspace : Python.isSpace c = false) :
    c ∈ (strip text).toList := by
  rw [strip, String.toList_ofList, List.mem_reverse]
  exact mem_dropWhile_of_not (List.mem_reverse.mpr (mem_dropWhile_of_not h hspace)) hspace

theorem ipAddress_strip_of_slash {cs : List Char} (h : '/' ∈ cs) :
    ipAddress (strip (String.ofList cs)) = none := by
  cases hparsed : ipAddress (strip (String.ofList cs)) with
  | none => rfl
  | some a =>
    refine absurd (mem_strip (String.ofList cs) ?_ (by decide)) (ipAddress_eq_some hparsed).1
    rwa [String.toList_ofList]

/-- The second end of a range is there only after a hyphen. -/
theorem hyphen_mem {spec : String} {hi : IpAddress} (h : ipAddress (splitRange spec).2 = some hi) :
    '-' ∈ spec.toList := by
  by_contra hhyphen
  have hall : spec.toList.dropWhile (· ≠ '-') = [] :=
    List.dropWhile_eq_nil_iff.mpr fun c hc => by
      simp only [decide_eq_true_eq]
      rintro rfl
      exact hhyphen hc
  have hblank : (splitRange spec).2 = "" := by
    rw [splitRange, hall]
    rfl
  rw [hblank] at h
  cases h

/-! ### Lists of addresses -/

theorem Ascending.unique {xs ys : List IpAddress} (hxs : Ascending xs) (hys : Ascending ys)
    (h : ∀ a, a ∈ xs ↔ a ∈ ys) : xs = ys := by
  have : Std.Irrefl fun a b => number a < number b := ⟨fun a => Nat.lt_irrefl _⟩
  have : Std.Antisymm fun a b => number a < number b :=
    ⟨fun a b hab hba => absurd hab (Nat.lt_asymm hba)⟩
  exact List.Pairwise.eq_of_mem_iff hxs hys h

theorem ascending_map {f : ℕ → IpAddress} {ns : List ℕ} (hns : ns.Pairwise (· < ·))
    (hf : ∀ n ∈ ns, number (f n) = n) : Ascending (ns.map f) :=
  List.pairwise_map.mpr (hns.imp_of_mem fun ha hb h => by rwa [hf _ ha, hf _ hb])

theorem number_v6 {n : ℕ} (scope : Option String) (h : n < 2 ^ 128) :
    number (.v6 (BitVec.ofNat 128 n) scope) = n :=
  Nat.mod_eq_of_lt h

theorem hostNumbers_sorted {w : ℕ} (net : Net w) (tops : ℕ) :
    (hostNumbers net tops).Pairwise (· < ·) := by
  unfold hostNumbers
  split
  · exact List.pairwise_singleton _ _
  · split
    · simp
    · exact List.pairwise_lt_range'

theorem mem_hostNumbers {w : ℕ} (net : Net w) {tops n : ℕ} (htops : tops ≤ 1) :
    n ∈ hostNumbers net tops ↔ net.base.toNat ≤ n ∧ n < net.base.toNat + 2 ^ (w - net.prefixlen) ∧
      (net.prefixlen + 1 < w →
        n ≠ net.base.toNat ∧ n + tops < net.base.toNat + 2 ^ (w - net.prefixlen)) := by
  have hlength := net.prefixlen_le
  unfold hostNumbers
  split
  next hfull =>
    rw [hfull, Nat.sub_self, List.mem_singleton]
    omega
  · split
    next hpair =>
      have hone : w - net.prefixlen = 1 := by omega
      rw [hone]
      simp only [List.mem_cons, List.not_mem_nil, or_false]
      omega
    next =>
      have hfour : 2 ^ 2 ≤ 2 ^ (w - net.prefixlen) := Nat.pow_le_pow_right (by decide) (by omega)
      rw [List.mem_range'_1]
      omega

theorem mem_hosts {net : IpNetwork} {a : IpAddress} : a ∈ hosts net ↔ IsHost net a := by
  cases net with
  | v4 net =>
    have hmem (n : ℕ) := mem_hostNumbers (n := n) net (Nat.le_refl 1)
    dsimp only [hosts, IsHost]
    rw [List.mem_map]
    constructor
    · rintro ⟨n, hn, rfl⟩
      obtain ⟨hfirst, hlast, hinner⟩ := (hmem n).mp hn
      exact ⟨n, rfl, hfirst, hlast, fun hlong => ⟨(hinner hlong).1, (hinner hlong).2.ne⟩⟩
    · rintro ⟨n, rfl, hfirst, hlast, hinner⟩
      refine ⟨n, (hmem n).mpr ⟨hfirst, hlast, fun hlong => ⟨(hinner hlong).1, ?_⟩⟩, rfl⟩
      have hne := (hinner hlong).2
      omega
  | v6 net scope =>
    dsimp only [hosts, IsHost]
    split
    next hfull =>
      rw [List.mem_singleton, hfull, Nat.sub_self]
      constructor
      · rintro rfl
        refine ⟨net.base.toNat, ?_, le_rfl, by omega, by omega⟩
        rw [BitVec.ofNat_toNat, BitVec.setWidth_eq]
      · rintro ⟨n, rfl, hfirst, hlast, -⟩
        obtain rfl : n = net.base.toNat := by omega
        rw [BitVec.ofNat_toNat, BitVec.setWidth_eq]
    next hshort =>
      have hmem (n : ℕ) := mem_hostNumbers (n := n) net (Nat.zero_le 1)
      rw [List.mem_map]
      constructor
      · rintro ⟨n, hn, rfl⟩
        obtain ⟨hfirst, hlast, hinner⟩ := (hmem n).mp hn
        exact ⟨n, rfl, hfirst, hlast, fun hlong => (hinner hlong).1⟩
      · rintro ⟨n, rfl, hfirst, hlast, hinner⟩
        exact ⟨n, (hmem n).mpr ⟨hfirst, hlast, fun hlong => ⟨hinner hlong, hlast⟩⟩, rfl⟩

theorem ascending_hosts (net : IpNetwork) : Ascending (hosts net) := by
  cases net with
  | v4 net =>
    refine ascending_map (hostNumbers_sorted net 1) fun n hn => number_v4 ?_
    exact ((mem_hostNumbers net le_rfl).mp hn).2.1.trans_le (base_add_le net)
  | v6 net scope =>
    dsimp only [hosts]
    split
    · exact List.pairwise_singleton _ _
    · refine ascending_map (hostNumbers_sorted net 0) fun n hn => number_v6 none ?_
      exact ((mem_hostNumbers net (Nat.zero_le 1)).mp hn).2.1.trans_le (base_add_le net)

theorem hosts_ne_nil (net : IpNetwork) : hosts net ≠ [] := by
  have hpos {w : ℕ} (net : Net w) (tops : ℕ) (htops : tops ≤ 1) : hostNumbers net tops ≠ [] := by
    have hlength := net.prefixlen_le
    unfold hostNumbers
    split
    · exact List.cons_ne_nil _ _
    · split
      · exact List.cons_ne_nil _ _
      · have hfour : 2 ^ 2 ≤ 2 ^ (w - net.prefixlen) := Nat.pow_le_pow_right (by decide) (by omega)
        rw [Ne, List.range'_eq_nil_iff]
        omega
  cases net with
  | v4 net => exact fun h => hpos net 1 le_rfl (List.map_eq_nil_iff.mp h)
  | v6 net scope =>
    dsimp only [hosts]
    split
    · exact List.cons_ne_nil _ _
    · exact fun h => hpos net 0 (Nat.zero_le 1) (List.map_eq_nil_iff.mp h)

section
variable {lo hi : IpAddress}

/-- The numbers of a range. -/
def between (lo hi : IpAddress) : List ℕ :=
  List.range' (min (number lo) (number hi))
    (max (number lo) (number hi) + 1 - min (number lo) (number hi))

theorem mem_between {n : ℕ} :
    n ∈ between lo hi ↔ min (number lo) (number hi) ≤ n ∧ n ≤ max (number lo) (number hi) := by
  rw [between, List.mem_range'_1]
  omega

theorem number_inFamily (hfamily : sameFamily lo hi) {n : ℕ}
    (h : n ≤ max (number lo) (number hi)) : number (inFamily lo n) = n := by
  cases lo with
  | v4 ip =>
    cases hi with
    | v4 ip' => exact number_v4 (h.trans_lt (Nat.max_lt.mpr ⟨ip.isLt, ip'.isLt⟩))
    | v6 ip' scope => cases hfamily
  | v6 ip scope =>
    cases hi with
    | v4 ip' => cases hfamily
    | v6 ip' scope' => exact number_v6 none (h.trans_lt (Nat.max_lt.mpr ⟨ip.isLt, ip'.isLt⟩))

theorem ascending_range (hfamily : sameFamily lo hi) :
    Ascending ((between lo hi).map (inFamily lo)) :=
  ascending_map List.pairwise_lt_range' fun _ hn => number_inFamily hfamily (mem_between.mp hn).2

/-- `ip_address(n)` finds the family back above the IPv4 numbers. -/
theorem addressOfInt_eq (hfamily : sameFamily lo hi)
    (habove : (∃ ip scope, lo = .v6 ip scope) → 2 ^ 32 ≤ min (number lo) (number hi)) :
    (between lo hi).map addressOfInt = (between lo hi).map (inFamily lo) := by
  refine List.map_congr_left fun n hn => ?_
  obtain ⟨hfirst, hlast⟩ := mem_between.mp hn
  cases lo with
  | v4 ip =>
    cases hi with
    | v4 ip' => exact if_pos (hlast.trans_lt (Nat.max_lt.mpr ⟨ip.isLt, ip'.isLt⟩))
    | v6 ip' scope => cases hfamily
  | v6 ip scope => exact if_neg (not_lt.mpr ((habove ⟨ip, scope, rfl⟩).trans hfirst))

theorem expandRange_eq {spec : String} (hlo : ipAddress (splitRange spec).1 = some lo)
    (hhi : ipAddress (splitRange spec).2 = some hi) :
    expandRange spec = if sameFamily lo hi then .ok (some ((between lo hi).map addressOfInt))
      else .error .typeError := by
  unfold expandRange between
  rw [hlo, hhi]
  dsimp only
  split
  · split
    next hlt => rw [Nat.min_eq_right hlt.le, Nat.max_eq_left hlt.le]
    next hge => rw [Nat.min_eq_left (not_lt.mp hge), Nat.max_eq_right (not_lt.mp hge)]
  · rfl

end

/-! ### The outcome -/

theorem expandRange_numbers {spec : String} {out : Option (List IpAddress)}
    (h : expandRange spec = .ok out) : ∃ ns : List ℕ, out.getD [] = ns.map addressOfInt := by
  unfold expandRange at h
  split at h
  next lo hi _ _ =>
    split at h
    · exact ⟨_, by rw [← Except.ok.inj h]; rfl⟩
    · cases h
  next => exact ⟨[], by rw [← Except.ok.inj h]; rfl⟩

theorem expandRange_of_slash {spec : String} (h : '/' ∈ spec.toList) : expandRange spec = .ok none := by
  have hhalf : ipAddress (splitRange spec).1 = none ∨ ipAddress (splitRange spec).2 = none := by
    rw [← List.takeWhile_append_dropWhile (p := (· ≠ '-')) (l := spec.toList), List.mem_append] at h
    rcases h with hfirst | hrest
    · exact .inl (ipAddress_strip_of_slash hfirst)
    · right
      refine ipAddress_strip_of_slash ?_
      have hhead := List.head?_dropWhile_not (· ≠ '-') spec.toList
      cases hdrop : spec.toList.dropWhile (· ≠ '-') with
      | nil =>
        rw [hdrop] at hrest
        cases hrest
      | cons c rest =>
        rw [hdrop] at hrest hhead
        have hc : c = '-' := by simpa using hhead
        rcases List.mem_cons.mp hrest with hslash | hmem
        · exact absurd (hslash.trans hc) (by decide)
        · exact hmem
  unfold expandRange
  rcases hhalf with hnone | hnone
  · rw [hnone]
  · rw [hnone]
    cases ipAddress (splitRange spec).1 <;> rfl

section
variable {spec : String}

theorem parsePool_hyphen (h : '-' ∈ (strip spec).toList) :
    parsePool spec = (expandRange (strip spec)).map fun out =>
      ((out.getD []).take poolMax).map IpAddress.text := by
  unfold parsePool
  dsimp only
  rw [if_neg (not_skipped h (by decide) (by decide)), if_pos (List.contains_iff_mem.mpr h)]
  cases expandRange (strip spec) <;> rfl

theorem parsePool_block (hhyphen : '-' ∉ (strip spec).toList) (hslash : '/' ∈ (strip spec).toList)
    {net : IpNetwork} (hnet : ipNetwork (strip spec) = some net) :
    parsePool spec = .ok (((hosts net).take poolMax).map IpAddress.text) := by
  unfold parsePool
  dsimp only
  rw [if_neg (not_skipped hslash (by decide) (by decide)),
    if_neg fun h => hhyphen (List.contains_iff_mem.mp h), if_pos (List.contains_iff_mem.mpr hslash),
    hnet]
  rfl

theorem parsePool_address (hhyphen : '-' ∉ (strip spec).toList) {a : IpAddress}
    (ha : ipAddress (strip spec) = some a) : parsePool spec = .ok [a.text] := by
  have hskip : ¬(strip spec = "" ∨ lower (strip spec) = disabled) := by
    rcases dot_or_colon_mem ha with hdot | hcolon
    · exact not_skipped hdot (by decide) (by decide)
    · exact not_skipped hcolon (by decide) (by decide)
  unfold parsePool
  dsimp only
  rw [if_neg hskip, if_neg fun h => hhyphen (List.contains_iff_mem.mp h),
    if_neg fun h => (ipAddress_eq_some ha).1 (List.contains_iff_mem.mp h), ha]
  rfl

theorem parsePool_total (hhyphen : '-' ∉ (strip spec).toList) : ∃ out, parsePool spec = .ok out := by
  unfold parsePool
  dsimp only
  rw [if_neg fun h => hhyphen (List.contains_iff_mem.mp h)]
  split
  · exact ⟨_, rfl⟩
  · split <;> exact ⟨_, rfl⟩

/-- What a range denotes. -/
theorem denotes_range {text : String} {lo hi : IpAddress}
    (hlo : ipAddress (splitRange text).1 = some lo)
    (hhi : ipAddress (splitRange text).2 = some hi) (hfamily : sameFamily lo hi) :
    Denotes text ((between lo hi).map (inFamily lo)) := by
  refine .range hlo hhi hfamily (ascending_range hfamily) fun a => ?_
  rw [List.mem_map]
  constructor
  · rintro ⟨n, hn, rfl⟩
    exact ⟨n, rfl, mem_between.mp hn⟩
  · rintro ⟨n, rfl, hn⟩
    exact ⟨n, mem_between.mpr hn, rfl⟩

theorem above_of_exact {lo hi : IpAddress} (hfamily : sameFamily lo hi)
    (hlo : ∃ ip scope, lo = .v6 ip scope)
    (h : (((between lo hi).map addressOfInt).take poolMax).map IpAddress.text =
      (((between lo hi).map (inFamily lo)).take poolMax).map IpAddress.text) :
    2 ^ 32 ≤ min (number lo) (number hi) := by
  rw [← List.map_take, ← List.map_take, List.map_map, List.map_map, List.map_inj_left] at h
  have hlength : max (number lo) (number hi) + 1 - min (number lo) (number hi) =
      max (number lo) (number hi) - min (number lo) (number hi) + 1 := by omega
  have hfirst := h (min (number lo) (number hi)) (by
    rw [between, hlength, List.range'_succ]
    exact List.mem_cons_self)
  by_contra hbelow
  obtain ⟨ip, scope, rfl⟩ := hlo
  refine text_v4_ne_v6 (BitVec.ofNat 32 (min (number (.v6 ip scope)) (number hi))) _ none
    (Eq.trans ?_ hfirst)
  rw [Function.comp_apply, addressOfInt, if_pos (not_le.mp hbelow)]

/-- For every specification. -/
theorem parsePool_exact_iff (spec : String) :
    ((∃ out, parsePool spec = .ok out) ∧ ∀ addresses, Denotes (strip spec) addresses →
      parsePool spec = .ok ((addresses.take poolMax).map IpAddress.text)) ↔ Exact (strip spec) := by
  constructor
  · rintro ⟨⟨out, htotal⟩, hexact⟩
    have hfamilies (lo hi : IpAddress) (hlo : ipAddress (splitRange (strip spec)).1 = some lo)
        (hhi : ipAddress (splitRange (strip spec)).2 = some hi) : sameFamily lo hi := by
      by_contra hfamily
      rw [parsePool_hyphen (hyphen_mem hhi), expandRange_eq hlo hhi, if_neg hfamily] at htotal
      cases htotal
    refine ⟨hfamilies, fun lo hi hlo hhi hv6 => ?_, fun hhyphen => ⟨?_, fun hslash => ?_⟩⟩
    · have hfamily := hfamilies lo hi hlo hhi
      have hrange := hexact _ (denotes_range hlo hhi hfamily)
      rw [parsePool_hyphen (hyphen_mem hhi), expandRange_eq hlo hhi, if_pos hfamily] at hrange
      exact above_of_exact hfamily hv6 (Except.ok.inj hrange)
    · cases ha : ipAddress (strip spec) with
      | none => rfl
      | some a =>
        have hone := hexact [a] (.address ha rfl)
        rw [parsePool_hyphen hhyphen] at hone
        cases hrange : expandRange (strip spec) with
        | error raised =>
          rw [hrange] at hone
          cases hone
        | ok read =>
          rw [hrange] at hone
          obtain ⟨ns, hns⟩ := expandRange_numbers hrange
          have htexts : ((read.getD []).take poolMax).map IpAddress.text = [a.text] :=
            Except.ok.inj hone
          have hmem : a.text ∈ ((read.getD []).take poolMax).map IpAddress.text := by
            exact htexts ▸ List.mem_singleton_self _
          obtain ⟨b, hb, htext⟩ := List.mem_map.mp hmem
          obtain ⟨n, -, rfl⟩ := List.mem_map.mp (hns ▸ List.mem_of_mem_take hb)
          exact absurd (htext ▸ percent_mem ha hhyphen) (percent_notMem n)
    · cases hnet : ipNetwork (strip spec) with
      | none => rfl
      | some net =>
        have hblock := hexact _ (.block hslash hnet (ascending_hosts net) fun _ => mem_hosts)
        rw [parsePool_hyphen hhyphen, expandRange_of_slash hslash] at hblock
        have hempty := List.map_eq_nil_iff.mp (Except.ok.inj hblock).symm
        rcases List.take_eq_nil_iff.mp hempty with hzero | hnone
        · cases hzero
        · exact absurd hnone (hosts_ne_nil net)
  · rintro ⟨hfamilies, habove, hzones⟩
    by_cases hhyphen : '-' ∈ (strip spec).toList
    · obtain ⟨hnoAddress, hnoBlock⟩ := hzones hhyphen
      refine ⟨?_, fun addresses hdenotes => ?_⟩
      · rw [parsePool_hyphen hhyphen]
        cases hlo : ipAddress (splitRange (strip spec)).1 with
        | none => exact ⟨[], by unfold expandRange; rw [hlo]; rfl⟩
        | some lo =>
          cases hhi : ipAddress (splitRange (strip spec)).2 with
          | none => exact ⟨[], by unfold expandRange; rw [hlo, hhi]; rfl⟩
          | some hi =>
            rw [expandRange_eq hlo hhi, if_pos (hfamilies lo hi hlo hhi)]
            exact ⟨_, rfl⟩
      · cases hdenotes with
        | address ha => exact absurd (hnoAddress.symm.trans ha) (by simp)
        | block hslash hnet => exact absurd ((hnoBlock hslash).symm.trans hnet) (by simp)
        | range hlo hhi hfamily hascending hmem =>
          have hlist : addresses = _ := hascending.unique (ascending_range hfamily) fun a => by
            rw [hmem a, List.mem_map]
            simp only [mem_between]
            exact exists_congr fun n => ⟨fun h => ⟨h.2, h.1.symm⟩, fun h => ⟨h.2.symm, h.1⟩⟩
          rw [parsePool_hyphen hhyphen, expandRange_eq hlo hhi, if_pos hfamily,
            addressOfInt_eq hfamily (habove _ _ hlo hhi), ← hlist]
          rfl
    · refine ⟨parsePool_total hhyphen, fun addresses hdenotes => ?_⟩
      cases hdenotes with
      | address ha hsingle =>
        rw [parsePool_address hhyphen ha, hsingle]
        rfl
      | block hslash hnet hascending hmem =>
        have hlist : addresses = _ := hascending.unique (ascending_hosts _) fun a =>
          (hmem a).trans mem_hosts.symm
        rw [parsePool_block hhyphen hslash hnet, hlist]
      | range hlo hhi => exact absurd (hyphen_mem hhi) hhyphen

end

example : parsePool "::1-::2" = .ok ["0.0.0.1", "0.0.0.2"] ∧ parsePool "fe80::1%eth-0" = .ok [] ∧
    parsePool "10.0.0.9-10.0.0.8" = .ok ["10.0.0.8", "10.0.0.9"] := by decide +kernel

/-- Two families do not compare. -/
theorem parsePool_mixed : ¬∀ spec : String,
    (∃ out, parsePool spec = .ok out) ∧ ∀ addresses, Denotes (strip spec) addresses →
      parsePool spec = .ok ((addresses.take poolMax).map IpAddress.text) := by
  intro h
  obtain ⟨out, hout⟩ := (h "10.0.0.1-::1").1
  have hraised : parsePool "10.0.0.1-::1" = .error .typeError := by decide +kernel
  rw [hraised] at hout
  cases hout

end Tunnels
