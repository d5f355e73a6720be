import Mathlib.Data.List.Sort
import VmDashboard.Python.Convert
import VmDashboard.Python.IpAddress

/-!
# Compact JSON texts, and reading them back

`json.dumps` with `sort_keys` and the separators `,` and `:`, and `json.loads`. The values have no
fraction or exponent, so a text with one is not read; nor is one with a lone surrogate, which is no
character.
-/

namespace Python

mutual

/-- `json.dumps(value, sort_keys=True, separators=(",", ":"))`. -/
def Json.compact : Json → String
  | .null => "null"
  | .bool b => if b then "true" else "false"
  | .int n => toString n
  | .str s => escapeText s
  | .arr items => "[" ++ ",".intercalate (compactItems items) ++ "]"
  | .obj items =>
    "\x7b" ++ ",".intercalate (((compactFields items).insertionSort (·.1 ≤ ·.1)).map fun field =>
      escapeText field.1 ++ ":" ++ field.2) ++ "\x7d"

def compactItems : List Json → List String
  | [] => []
  | value :: rest => value.compact :: compactItems rest

def compactFields : List (String × Json) → List (String × String)
  | [] => []
  | (key, value) :: rest => (key, value.compact) :: compactFields rest

end

example : (Json.obj [("v", .int 1), ("aud", .str "é")]).compact =
    "\x7b\"aud\":\"\\u00e9\",\"v\":1\x7d" := by decide

/-! ### Reading a text -/

def hexValue? (c : Char) : Option ℕ :=
  if '0' ≤ c ∧ c ≤ '9' then some (c.toNat - 48)
  else if 'a' ≤ c ∧ c ≤ 'f' then some (c.toNat - 87)
  else if 'A' ≤ c ∧ c ≤ 'F' then some (c.toNat - 55)
  else none

/-- The four digits after `\u`. -/
def readUnit : List Char → Option (ℕ × List Char)
  | a :: b :: c :: d :: rest => do
    let a ← hexValue? a
    let b ← hexValue? b
    let c ← hexValue? c
    let d ← hexValue? d
    return (((a * 16 + b) * 16 + c) * 16 + d, rest)
  | _ => none

/-- The second half of a surrogate pair. -/
def readLow (high : ℕ) : List Char → Option (Char × List Char)
  | '\\' :: 'u' :: rest =>
    (readUnit rest).bind fun (low, rest) =>
      if 0xDC00 ≤ low ∧ low ≤ 0xDFFF then
        some (Char.ofNat (0x10000 + (high - 0xD800) * 1024 + (low - 0xDC00)), rest)
      else none
  | _ => none

def readUnicode (rest : List Char) : Option (Char × List Char) :=
  (readUnit rest).bind fun (unit, rest) =>
    if 0xD800 ≤ unit ∧ unit ≤ 0xDBFF then readLow unit rest
    else if 0xDC00 ≤ unit ∧ unit ≤ 0xDFFF then none
    else some (Char.ofNat unit, rest)

def simpleEscape (c : Char) : Option Char :=
  if c = '"' ∨ c = '\\' ∨ c = '/' then some c
  else if c = 'b' then some (Char.ofNat 8)
  else if c = 'f' then some (Char.ofNat 12)
  else if c = 'n' then some '\n'
  else if c = 'r' then some '\r'
  else if c = 't' then some '\t'
  else none

/-- One character between the quotation marks of a text. -/
def readChar : List Char → Option (Char × List Char)
  | [] => none
  | c :: rest =>
    if c = '\\' then
      match rest with
      | [] => none
      | e :: rest => if e = 'u' then readUnicode rest else (simpleEscape e).map (·, rest)
    else if c.toNat < 32 then none
    else some (c, rest)

/-- The rest of a text up to its closing mark. `fuel` bounds the number of its characters. -/
def readText : ℕ → List Char → Option (List Char × List Char)
  | 0, _ => none
  | fuel + 1, cs =>
    if cs.head? = some '"' then some ([], cs.tail)
    else
      (readChar cs).bind fun (c, rest) =>
        (readText fuel rest).map fun (text, rest) => (c :: text, rest)

def isJsonSpace (c : Char) : Bool := c = ' ' || c = '\t' || c = '\n' || c = '\r'

def skipSpace (cs : List Char) : List Char := cs.dropWhile isJsonSpace

/-- The character `c`, after spaces. -/
def expect (c : Char) (cs : List Char) : Option (List Char) :=
  match skipSpace cs with
  | d :: rest => if d = c then some rest else none
  | [] => none

/-- `-?(0|[1-9]\d*)`, with no fraction or exponent after it. -/
def readInt (cs : List Char) : Option (ℤ × List Char) :=
  let (negative, body) := match cs with
    | '-' :: rest => (true, rest)
    | rest => (false, rest)
  let digits := body.takeWhile isAsciiDigit
  let rest := body.drop digits.length
  let ends := rest.head?.all fun c => c ≠ '.' && c ≠ 'e' && c ≠ 'E'
  if digits ≠ [] ∧ (digits.length = 1 ∨ digits.head? ≠ some '0') ∧ ends then
    let n : ℕ := digits.foldl (fun n c => n * 10 + (c.toNat - 48)) 0
    some (if negative then -n else n, rest)
  else none

def readLiteral (cs : List Char) : Option (Json × List Char) :=
  if "null".toList <+: cs then some (.null, cs.drop 4)
  else if "true".toList <+: cs then some (.bool true, cs.drop 4)
  else if "false".toList <+: cs then some (.bool false, cs.drop 5)
  else (readInt cs).map fun (n, rest) => (.int n, rest)

mutual

def readValue : ℕ → List Char → Option (Json × List Char)
  | 0, _ => none
  | fuel + 1, cs =>
    match skipSpace cs with
    | [] => none
    | c :: rest =>
      if c = '"' then (readText fuel rest).map fun (text, rest) => (.str (String.ofList text), rest)
      else if c = '[' then
        match expect ']' rest with
        | some rest => some (.arr [], rest)
        | none => (readItems fuel rest).map fun (items, rest) => (.arr items, rest)
      else if c = '\x7b' then
        match expect '\x7d' rest with
        | some rest => some (.obj [], rest)
        | none => (readFields fuel [] rest).map fun (fields, rest) => (.obj fields, rest)
      else readLiteral (c :: rest)

def readItems : ℕ → List Char → Option (List Json × List Char)
  | 0, _ => none
  | fuel + 1, cs =>
    (readValue fuel cs).bind fun (value, rest) =>
      match expect ']' rest with
      | some rest => some ([value], rest)
      | none =>
        (expect ',' rest).bind fun rest =>
          (readItems fuel rest).map fun (items, rest) => (value :: items, rest)

/-- A key that comes twice keeps its first place and its last value. -/
def readFields : ℕ → Dict → List Char → Option (Dict × List Char)
  | 0, _, _ => none
  | fuel + 1, fields, cs =>
    (expect '"' cs).bind fun rest =>
      (readText fuel rest).bind fun (key, rest) =>
        (expect ':' rest).bind fun rest =>
          (readValue fuel rest).bind fun (value, rest) =>
            let fields := fields.set (String.ofList key) value
            match expect '\x7d' rest with
            | some rest => some (fields, rest)
            | none => (expect ',' rest).bind fun rest => readFields fuel fields rest

end

/-- `json.loads(text)`, `none` when it raises. -/
def loads (text : String) : Option Json :=
  match readValue (2 * text.length + 2) text.toList with
  | some (value, rest) => if skipSpace rest = [] then some value else none
  | none => none

/-! ### A text that was written is read back -/

theorem hexValue?_hexDigit {n : ℕ} (h : n < 16) : hexValue? (hexDigit n) = some n := by
  have hall : ∀ n < 16, hexValue? (hexDigit n) = some n := by decide
  exact hall n h

theorem escapeUnit_toList (n : ℕ) : (escapeUnit n).toList = '\\' :: 'u' ::
    [hexDigit (n / 4096 % 16), hexDigit (n / 256 % 16), hexDigit (n / 16 % 16),
      hexDigit (n % 16)] := by
  simp [escapeUnit]

theorem readUnit_hexDigits {n : ℕ} (h : n < 65536) (rest : List Char) :
    readUnit ([hexDigit (n / 4096 % 16), hexDigit (n / 256 % 16), hexDigit (n / 16 % 16),
      hexDigit (n % 16)] ++ rest) = some (n, rest) := by
  have hdigit : ∀ m, hexValue? (hexDigit (m % 16)) = some (m % 16) :=
    fun m => hexValue?_hexDigit (Nat.mod_lt m (by omega))
  have hsum : ((n / 4096 % 16 * 16 + n / 256 % 16) * 16 + n / 16 % 16) * 16 + n % 16 = n := by
    omega
  simp only [List.cons_append, List.nil_append, readUnit, hdigit, Option.bind_eq_bind,
    Option.bind_some, hsum]
  rfl

theorem toNat_not_surrogate (c : Char) : c.toNat < 0xD800 ∨ 0xDFFF < c.toNat := by
  have hvalid := c.valid
  have hval : c.val.toNat = c.toNat := rfl
  rcases hvalid with h | ⟨h, -⟩
  · exact .inl h
  · exact .inr h

theorem toNat_lt_of_char (c : Char) : c.toNat < 0x110000 := by
  rcases c.valid with h | ⟨-, h⟩
  · have hlow : c.toNat < 0xD800 := h
    omega
  · exact h

/-- A character outside the basic plane is read from its two halves. -/
theorem readUnicode_pair {c : Char} (h : 65536 ≤ c.toNat) (rest : List Char) :
    readUnicode ((escapeUnit (0xD800 + (c.toNat - 65536) / 1024)).toList.drop 2 ++
      ((escapeUnit (0xDC00 + (c.toNat - 65536) % 1024)).toList ++ rest)) = some (c, rest) := by
  have hmax := toNat_lt_of_char c
  have hhigh : 0xD800 + (c.toNat - 65536) / 1024 < 65536 := by omega
  have hlow : 0xDC00 + (c.toNat - 65536) % 1024 < 65536 := by omega
  have hvalue : 0x10000 + (0xD800 + (c.toNat - 65536) / 1024 - 0xD800) * 1024 +
      (0xDC00 + (c.toNat - 65536) % 1024 - 0xDC00) = c.toNat := by omega
  unfold readUnicode
  rw [escapeUnit_toList, escapeUnit_toList, List.drop_succ_cons, List.drop_succ_cons,
    List.drop_zero, readUnit_hexDigits hhigh, Option.bind_some]
  dsimp only
  rw [if_pos (by omega)]
  simp only [List.cons_append, readLow]
  rw [← List.cons_append, ← List.cons_append, ← List.cons_append, ← List.cons_append,
    readUnit_hexDigits hlow, Option.bind_some]
  dsimp only
  rw [if_pos (by omega), hvalue, Char.ofNat_toNat]

theorem readUnicode_unit {c : Char} (h : c.toNat < 65536) (rest : List Char) :
    readUnicode ((escapeUnit c.toNat).toList.drop 2 ++ rest) = some (c, rest) := by
  have hscalar := toNat_not_surrogate c
  unfold readUnicode
  rw [escapeUnit_toList, List.drop_succ_cons, List.drop_succ_cons, List.drop_zero,
    readUnit_hexDigits h, Option.bind_some]
  dsimp only
  rw [if_neg (by omega), if_neg (by omega), Char.ofNat_toNat]

theorem readChar_escape {e : Char} (he : e ≠ 'u') (rest : List Char) :
    readChar ('\\' :: e :: rest) = (simpleEscape e).map (·, rest) := by
  simp [readChar, he]

theorem readChar_unicode (rest : List Char) :
    readChar ('\\' :: 'u' :: rest) = readUnicode rest := by
  simp [readChar]

theorem escapeUnit_eq_cons (n : ℕ) :
    (escapeUnit n).toList = '\\' :: 'u' :: (escapeUnit n).toList.drop 2 := by
  rw [escapeUnit_toList]
  rfl

theorem readChar_escapeChar (c : Char) (rest : List Char) :
    readChar ((escapeChar c).toList ++ rest) = some (c, rest) := by
  have hcode : ∀ n, c.toNat = n → c = Char.ofNat n := by
    intro n hn
    rw [← hn, Char.ofNat_toNat]
  unfold escapeChar
  by_cases hquote : c = '"'
  · rw [if_pos hquote, hquote]
    exact readChar_escape (by decide) rest
  rw [if_neg hquote]
  by_cases hslash : c = '\\'
  · rw [if_pos hslash, hslash]
    exact readChar_escape (by decide) rest
  rw [if_neg hslash]
  by_cases hline : c = '\n'
  · rw [if_pos hline, hline]
    exact readChar_escape (by decide) rest
  rw [if_neg hline]
  by_cases hreturn : c = '\r'
  · rw [if_pos hreturn, hreturn]
    exact readChar_escape (by decide) rest
  rw [if_neg hreturn]
  by_cases htab : c = '\t'
  · rw [if_pos htab, htab]
    exact readChar_escape (by decide) rest
  rw [if_neg htab]
  by_cases hback : c.toNat = 8
  · rw [if_pos hback, hcode 8 hback]
    exact readChar_escape (by decide) rest
  rw [if_neg hback]
  by_cases hfeed : c.toNat = 12
  · rw [if_pos hfeed, hcode 12 hfeed]
    exact readChar_escape (by decide) rest
  rw [if_neg hfeed]
  by_cases hplain : 32 ≤ c.toNat ∧ c.toNat ≤ 126
  · rw [if_pos hplain]
    have hcontrol : ¬c.toNat < 32 := by omega
    simp [readChar, hslash, hcontrol]
  rw [if_neg hplain]
  by_cases hbasic : c.toNat < 65536
  · rw [if_pos hbasic, escapeUnit_eq_cons, List.cons_append, List.cons_append, readChar_unicode]
    exact readUnicode_unit hbasic rest
  · rw [if_neg hbasic, String.toList_append, List.append_assoc, escapeUnit_eq_cons, List.cons_append,
      List.cons_append, readChar_unicode]
    exact readUnicode_pair (by omega) rest

theorem head_escapeChar (c : Char) (rest : List Char) :
    ((escapeChar c).toList ++ rest).head? ≠ some '"' := by
  intro h
  have hread := readChar_escapeChar c rest
  cases hcs : (escapeChar c).toList ++ rest with
  | nil =>
    rw [hcs] at h
    cases h
  | cons d cs =>
    rw [hcs] at h hread
    obtain rfl := Option.some.inj h
    -- a mark that is read as itself is the character, and that one is written with a backslash
    have hc : c = '"' := by
      have hsome := (Prod.mk.inj (Option.some.inj hread)).1
      exact hsome.symm
    subst hc
    cases hcs

theorem readText_escaped {fuel : ℕ} {cs : List Char} (hfuel : cs.length < fuel)
    (rest : List Char) :
    readText fuel (cs.flatMap (fun c => (escapeChar c).toList) ++ '"' :: rest) =
      some (cs, rest) := by
  induction cs generalizing fuel with
  | nil =>
    cases fuel with
    | zero => omega
    | succ fuel => rfl
  | cons c cs ih =>
    cases fuel with
    | zero => omega
    | succ fuel =>
      rw [List.length_cons] at hfuel
      rw [List.flatMap_cons, List.append_assoc, readText, if_neg (head_escapeChar c _),
        readChar_escapeChar, Option.bind_some]
      dsimp only
      rw [ih (by omega)]
      rfl

theorem escapeText_toList (text : String) : (escapeText text).toList =
    '"' :: (text.toList.flatMap (fun c => (escapeChar c).toList) ++ ['"']) := by
  have hjoin : ∀ texts : List String, (String.join texts).toList = texts.flatMap String.toList := by
    intro texts
    rw [String.toList_join]
  simp [escapeText, hjoin, List.flatMap_map]

/-- A text in quotation marks ends where its closing mark is, whatever follows. -/
theorem escapeText_append_inj {s t : String} {x y : List Char}
    (h : (escapeText s).toList ++ x = (escapeText t).toList ++ y) : s = t ∧ x = y := by
  rw [escapeText_toList, escapeText_toList, List.cons_append, List.cons_append, List.append_assoc,
    List.append_assoc] at h
  have hbody := (List.cons.inj h).2
  have hs := @readText_escaped (s.toList.length + t.toList.length + 1) s.toList (by omega) x
  have ht := @readText_escaped (s.toList.length + t.toList.length + 1) t.toList (by omega) y
  simp only [List.singleton_append] at hbody
  rw [hbody, ht] at hs
  obtain ⟨htext, hrest⟩ := Prod.mk.inj (Option.some.inj hs)
  exact ⟨String.toList_injective htext.symm, hrest.symm⟩

theorem length_escaped (cs : List Char) :
    cs.length ≤ (cs.flatMap fun c => (escapeChar c).toList).length := by
  induction cs with
  | nil => exact Nat.zero_le _
  | cons c cs ih =>
    have hpos : (escapeChar c).toList ≠ [] := by
      intro hnil
      have hread := readChar_escapeChar c []
      rw [hnil] at hread
      cases hread
    have := List.length_pos_iff.mpr hpos
    rw [List.flatMap_cons, List.length_append, List.length_cons]
    omega

theorem skipSpace_cons {c : Char} (h : isJsonSpace c = false) (rest : List Char) :
    skipSpace (c :: rest) = c :: rest := by
  simp [skipSpace, h]

theorem expect_self {c : Char} (h : isJsonSpace c = false) (rest : List Char) :
    expect c (c :: rest) = some rest := by
  rw [expect, skipSpace_cons h]
  exact if_pos rfl

theorem expect_of_ne {c d : Char} (h : isJsonSpace d = false) (hne : d ≠ c) (rest : List Char) :
    expect c (d :: rest) = none := by
  rw [expect, skipSpace_cons h]
  exact if_neg hne

theorem readValue_text {fuel : ℕ} {text : String} (hfuel : text.toList.length < fuel)
    (rest : List Char) :
    readValue (fuel + 1) ((escapeText text).toList ++ rest) = some (.str text, rest) := by
  rw [escapeText_toList, List.cons_append, List.append_assoc, readValue,
    skipSpace_cons (by decide)]
  dsimp only
  rw [if_pos rfl, List.singleton_append, readText_escaped hfuel, Option.map_some,
    String.ofList_toList]

/-- An object with one text in it is read back. -/
theorem loads_compact_field (key text : String) :
    loads (Json.obj [(key, .str text)]).compact = some (.obj [(key, .str text)]) := by
  have hchars : (Json.obj [(key, .str text)]).compact.toList =
      '\x7b' :: ((escapeText key).toList ++ ':' :: ((escapeText text).toList ++ ['\x7d'])) := by
    simp [Json.compact, compactFields]
  have hlength : key.toList.length + text.toList.length + 7 ≤
      (Json.obj [(key, .str text)]).compact.length := by
    have hkey := length_escaped key.toList
    have htext := length_escaped text.toList
    rw [← String.length_toList, hchars, escapeText_toList, escapeText_toList]
    simp only [List.length_cons, List.length_append, List.length_nil]
    omega
  obtain ⟨fuel, hfuel⟩ : ∃ fuel, 2 * (Json.obj [(key, .str text)]).compact.length + 2 =
      fuel + 3 := ⟨2 * (Json.obj [(key, .str text)]).compact.length - 1, by omega⟩
  have hread : readValue (fuel + 3) (Json.obj [(key, .str text)]).compact.toList =
      some (.obj [(key, .str text)], []) := by
    rw [hchars, readValue, skipSpace_cons (by decide)]
    dsimp only
    rw [if_neg (by decide), if_neg (by decide), if_pos rfl, escapeText_toList, List.cons_append,
      expect_of_ne (by decide) (by decide)]
    dsimp only
    rw [readFields, expect_self (by decide), Option.bind_some, List.append_assoc,
      List.singleton_append, readText_escaped (by omega), Option.bind_some]
    dsimp only
    rw [expect_self (by decide), Option.bind_some, readValue_text (by omega), Option.bind_some]
    dsimp only
    rw [expect_self (by decide)]
    simp [Dict.set, String.ofList_toList]
  unfold loads
  rw [hfuel, hread]
  rfl

end Python
