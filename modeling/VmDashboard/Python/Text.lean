import Mathlib.Data.List.Infix

/-!
# Python string operations

`str.strip`, `repr` of a string and substring search.
-/

namespace Python

/-- `c.isspace()`. -/
def isSpace (c : Char) : Bool :=
  let n := c.toNat
  (9 ≤ n && n ≤ 13) || (28 ≤ n && n ≤ 32) || n = 0x85 || n = 0xA0 || n = 0x1680 ||
    (0x2000 ≤ n && n ≤ 0x200A) || n = 0x2028 || n = 0x2029 || n = 0x202F || n = 0x205F || n = 0x3000

/-- `text.strip()`. -/
def strip (text : String) : String :=
  String.ofList ((text.toList.dropWhile isSpace).reverse.dropWhile isSpace).reverse

def apostrophe : Char := Char.ofNat 39

def quotation : Char := Char.ofNat 34

def backslash : Char := Char.ofNat 92

/-- One character of `repr(text)` between quotes `q`. A non-ASCII character counts as printable. -/
def reprChar (q c : Char) : List Char :=
  if c = q ∨ c = backslash then [backslash, c]
  else if c.toNat = 10 then [backslash, 'n']
  else if c.toNat = 13 then [backslash, 'r']
  else if c.toNat = 9 then [backslash, 't']
  else if c.toNat < 32 ∨ c.toNat = 127 then
    [backslash, 'x', Nat.digitChar (c.toNat / 16), Nat.digitChar (c.toNat % 16)]
  else [c]

/-- `repr(text)`. -/
def reprText (text : String) : String :=
  let cs := text.toList
  let q := if cs.contains apostrophe ∧ ¬cs.contains quotation then quotation else apostrophe
  String.ofList (q :: (cs.flatMap (reprChar q) ++ [q]))

/-- `text or None`. -/
def orNone (text : String) : Option String := if text = "" then none else some text

/-- `text or default`. -/
def orDefault (text default : String) : String := if text = "" then default else text

theorem getD_orNone (text : String) : (orNone text).getD "" = text := by
  unfold orNone
  split
  next h => exact h.symm
  next => rfl

/-- `needle in text`. -/
def containsText (text needle : String) : Bool := decide (needle.toList <:+: text.toList)

/-! ### `separator.join` -/

theorem count_intercalate (c : Char) (ls : List (List Char)) (hls : ls ≠ []) :
    ([c].intercalate ls).count c + 1 = ls.length + ls.flatten.count c := by
  induction ls with
  | nil => exact absurd rfl hls
  | cons l ls ih =>
    by_cases h : ls = []
    · subst h
      simp [List.intercalate, Nat.add_comm]
    · rw [List.intercalate_cons_of_ne_nil h]
      have hrest := ih h
      simp only [List.count_append, List.count_singleton_self, List.flatten_cons, List.length_cons]
      omega

/-- Joined fields are read back when the fields of one side hold no separator and both sides
have as many of them. -/
theorem intercalate_injective {c : Char} {ps qs : List (List Char)} (hlen : ps.length = qs.length)
    (hps : ∀ p ∈ ps, c ∉ p) (h : [c].intercalate ps = [c].intercalate qs) : ps = qs := by
  by_cases hnil : ps = []
  · rw [hnil, List.length_nil] at hlen
    rw [hnil, List.length_eq_zero_iff.mp hlen.symm]
  · have hqnil : qs ≠ [] := by
      intro hq
      rw [hq] at hlen
      exact hnil (List.length_eq_zero_iff.mp hlen)
    have hp : ps.flatten.count c = 0 := by
      rw [List.count_eq_zero, List.mem_flatten]
      rintro ⟨p, hp, hc⟩
      exact hps p hp hc
    -- both sides hold as many separators, so the fields of the other side hold none either
    have hcp := count_intercalate c ps hnil
    have hcq := count_intercalate c qs hqnil
    rw [h] at hcp
    have hq : ∀ q ∈ qs, c ∉ q := by
      have hcount : qs.flatten.count c = 0 := by omega
      rw [List.count_eq_zero] at hcount
      exact fun q hq hc => hcount (List.mem_flatten.mpr ⟨q, hq, hc⟩)
    rw [← List.splitOn_intercalate c hps hnil, ← List.splitOn_intercalate c hq hqnil, h]

theorem join_injective {separator : String} {c : Char} (hsep : separator.toList = [c])
    {ps qs : List String} (hlen : ps.length = qs.length) (hps : ∀ p ∈ ps, c ∉ p.toList)
    (h : separator.intercalate ps = separator.intercalate qs) : ps = qs := by
  have hchars := congrArg String.toList h
  simp only [String.toList_intercalate, hsep] at hchars
  have hmap : ps.map String.toList = qs.map String.toList := by
    refine intercalate_injective ?_ ?_ hchars
    · rw [List.length_map, List.length_map, hlen]
    · intro l hl
      obtain ⟨p, hp, rfl⟩ := List.mem_map.mp hl
      exact hps p hp
  exact List.map_injective_iff.mpr (fun s t hst => String.toList_injective hst) hmap

/-- Splitting at a separator undoes joining with it. -/
theorem splitOnP_intercalate (p : Char → Bool) {c : Char} (hc : p c = true) {ls : List (List Char)}
    (hls : ls ≠ []) (h : ∀ l ∈ ls, ∀ c ∈ l, p c = false) :
    ([c].intercalate ls).splitOnP p = ls := by
  induction ls with
  | nil => exact absurd rfl hls
  | cons l ls ih =>
    by_cases hnil : ls = []
    · subst hnil
      rw [List.intercalate_singleton]
      exact List.splitOnP_eq_singleton (h l List.mem_cons_self)
    · rw [List.intercalate_cons_of_ne_nil hnil, List.append_assoc, List.singleton_append,
        List.splitOnP_append_cons_of_forall_mem (h l List.mem_cons_self) c hc,
        ih hnil fun l' hl' => h l' (List.mem_cons_of_mem l hl')]

theorem splitOnP_free {p : Char → Bool} {text part : List Char} (h : part ∈ text.splitOnP p) :
    ∀ c ∈ part, p c = false := by
  induction text generalizing part with
  | nil =>
    obtain rfl := List.mem_singleton.mp h
    exact nofun
  | cons c text ih =>
    rw [List.splitOnP_cons_eq_if_modifyHead] at h
    split at h
    · rcases List.mem_cons.mp h with rfl | hrest
      · exact nofun
      · exact ih hrest
    next hc =>
      cases hsplit : text.splitOnP p with
      | nil => exact absurd hsplit (List.splitOnP_ne_nil p text)
      | cons first rest =>
        rw [hsplit] at h ih
        rcases List.mem_cons.mp h with rfl | hrest
        · intro c' hc'
          rcases List.mem_cons.mp hc' with rfl | hmem
          · exact Bool.eq_false_iff.mpr hc
          · exact ih List.mem_cons_self c' hmem
        · exact ih (List.mem_cons_of_mem first hrest)

/-! ### Cutting a text at a separator -/

/-- The first separator is where the field before it ends. -/
theorem append_cons_inj_left {c : Char} {a b x y : List Char} (ha : c ∉ a) (hb : c ∉ b)
    (h : a ++ c :: x = b ++ c :: y) : a = b ∧ x = y := by
  induction a generalizing b with
  | nil =>
    cases b with
    | nil => exact ⟨rfl, (List.cons.inj h).2⟩
    | cons d b =>
      obtain rfl := (List.cons.inj h).1
      exact absurd List.mem_cons_self hb
  | cons d a ih =>
    cases b with
    | nil =>
      obtain rfl := (List.cons.inj h).1
      exact absurd List.mem_cons_self ha
    | cons e b =>
      obtain ⟨rfl, hrest⟩ := List.cons.inj h
      obtain ⟨rfl, hxy⟩ := ih (fun hc => ha (List.mem_cons_of_mem d hc))
        (fun hc => hb (List.mem_cons_of_mem d hc)) hrest
      exact ⟨rfl, hxy⟩

/-- The last separator is where the field after it starts. -/
theorem append_cons_inj_right {c : Char} {a b x y : List Char} (hx : c ∉ x) (hy : c ∉ y)
    (h : a ++ c :: x = b ++ c :: y) : a = b ∧ x = y := by
  have hreverse := congrArg List.reverse h
  simp only [List.reverse_append, List.reverse_cons, List.append_assoc, List.singleton_append]
    at hreverse
  have hsplit := append_cons_inj_left (fun hc => hx (List.mem_reverse.mp hc))
    (fun hc => hy (List.mem_reverse.mp hc)) hreverse
  exact ⟨List.reverse_injective hsplit.2, List.reverse_injective hsplit.1⟩

theorem mem_toString_int {n : ℤ} {c : Char} (h : c ∈ (toString n).toList) :
    c.isDigit = true ∨ c = '-' := by
  have hnat : ∀ k : ℕ, c ∈ (Nat.repr k).toList → c.isDigit = true := by
    intro k hk
    rw [Nat.repr, String.toList_ofList] at hk
    exact Nat.isDigit_of_mem_toDigits (by omega) (by omega) hk
  match n with
  | .ofNat k => exact .inl (hnat k h)
  | .negSucc k =>
    have hneg : c ∈ ("-" ++ Nat.repr (k + 1)).toList := h
    rw [String.toList_append, List.mem_append] at hneg
    rcases hneg with hneg | hneg
    · exact .inr (List.mem_singleton.mp hneg)
    · exact .inl (hnat (k + 1) hneg)

end Python
