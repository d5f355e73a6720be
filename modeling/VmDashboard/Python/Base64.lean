import Mathlib.Data.Nat.Notation

/-!
# Base64 and UTF-8

`base64.urlsafe_b64decode` is `binascii.a2b_base64` without `strict_mode`: bytes outside the
alphabet are skipped, and what follows the padding is not read. Bytes are numbers there.
`base64.b64decode` with `validate` reads nothing but whole groups.
-/

namespace Python

def utf8 (text : String) : List ℕ :=
  text.toList.flatMap fun c => (String.utf8EncodeChar c).map UInt8.toNat

/-- The value of a byte of the standard alphabet. -/
def sextet (b : ℕ) : Option ℕ :=
  if 65 ≤ b ∧ b ≤ 90 then some (b - 65)
  else if 97 ≤ b ∧ b ≤ 122 then some (b - 71)
  else if 48 ≤ b ∧ b ≤ 57 then some (b + 4)
  else if b = 43 then some 62
  else if b = 47 then some 63
  else none

/-- The loop of `a2b_base64`: `quad` characters of the group are read, `left` are their bits not
yet written, `pads` the padding characters since. -/
def a2bBase64 (quad left pads : ℕ) : List ℕ → Option (List ℕ)
  | [] => if quad = 0 then some [] else none
  | b :: bs =>
    if b = 61 then
      if quad < 2 then a2bBase64 quad left pads bs
      else if 4 ≤ quad + (pads + 1) then some []
      else a2bBase64 quad left (pads + 1) bs
    else
      match sextet b with
      | none => a2bBase64 quad left pads bs
      | some v =>
        match quad with
        | 0 => a2bBase64 1 v 0 bs
        | 1 => (a2bBase64 2 (v % 16) 0 bs).map fun out => (left * 4 + v / 16) :: out
        | 2 => (a2bBase64 3 (v % 4) 0 bs).map fun out => (left * 16 + v / 4) :: out
        | _ => (a2bBase64 0 0 0 bs).map fun out => (left * 64 + v) :: out

/-- `-` and `_` in place of `+` and `/`, which are still read. -/
def urlsafeB64decode (input : List ℕ) : Option (List ℕ) :=
  a2bBase64 0 0 0 (input.map fun b => if b = 45 then 43 else if b = 95 then 47 else b)

/- A character outside the alphabet changes the text and not the bytes. -/
example : urlsafeB64decode (utf8 "TWFu") = some [77, 97, 110] ∧
    urlsafeB64decode (utf8 "TW!Fu") = some [77, 97, 110] ∧
    urlsafeB64decode (utf8 "TW=Fu==") = some [77, 97, 110] ∧
    urlsafeB64decode (utf8 "TWF") = none := by decide

/-! ### Encoding, and decoding with `validate` -/

abbrev Bytes := List UInt8

def base64Char (v : ℕ) : Char :=
  "ABCDEFGHIJKLMNOPQRSTUVWXYZabcdefghijklmnopqrstuvwxyz0123456789+/".toList.getD v 'A'

/-- `base64.b64encode(raw).decode("ascii")`. -/
def b64encode : Bytes → List Char
  | a :: b :: c :: rest =>
    base64Char (a.toNat / 4) :: base64Char (a.toNat % 4 * 16 + b.toNat / 16) ::
      base64Char (b.toNat % 16 * 4 + c.toNat / 64) :: base64Char (c.toNat % 64) :: b64encode rest
  | [a, b] =>
    [base64Char (a.toNat / 4), base64Char (a.toNat % 4 * 16 + b.toNat / 16),
      base64Char (b.toNat % 16 * 4), '=']
  | [a] => [base64Char (a.toNat / 4), base64Char (a.toNat % 4 * 16), '=', '=']
  | [] => []

/-- `base64.b64decode(text, validate=True)`, `none` when it raises. -/
def b64decode : List Char → Option Bytes
  | [] => some []
  | a :: b :: c :: d :: rest => do
    let a ← sextet a.toNat
    let b ← sextet b.toNat
    let first := UInt8.ofNat (a * 4 + b / 16)
    if d = '=' then
      if rest ≠ [] then none
      else if c = '=' then some [first]
      else
        let c ← sextet c.toNat
        some [first, UInt8.ofNat (b % 16 * 16 + c / 4)]
    else
      let c ← sextet c.toNat
      let d ← sextet d.toNat
      let rest ← b64decode rest
      some (first :: UInt8.ofNat (b % 16 * 16 + c / 4) :: UInt8.ofNat (c % 4 * 64 + d) :: rest)
  | _ => none

theorem sextet_base64Char {v : ℕ} (h : v < 64) : sextet (base64Char v).toNat = some v := by
  have hall : ∀ v < 64, sextet (base64Char v).toNat = some v := by decide +kernel
  exact hall v h

theorem base64Char_ne_pad {v : ℕ} (h : v < 64) : base64Char v ≠ '=' := by
  have hall : ∀ v < 64, base64Char v ≠ '=' := by decide +kernel
  exact hall v h

theorem ofNat_eq {n : ℕ} {a : UInt8} (h : n = a.toNat) : UInt8.ofNat n = a := by
  rw [h, UInt8.ofNat_toNat]

theorem b64decode_b64encode (raw : Bytes) : b64decode (b64encode raw) = some raw := by
  induction raw using b64encode.induct with
  | case1 a b c rest ih =>
    have ha := a.toNat_lt
    have hb := b.toNat_lt
    have hc := c.toNat_lt
    have hlast : base64Char (c.toNat % 64) ≠ '=' := base64Char_ne_pad (by omega)
    unfold b64encode b64decode
    rw [sextet_base64Char (by omega), sextet_base64Char (by omega), sextet_base64Char (by omega),
      sextet_base64Char (by omega), ih]
    simp only [Option.bind_eq_bind, Option.bind_some, if_neg hlast]
    rw [ofNat_eq (a := a) (by omega), ofNat_eq (a := b) (by omega), ofNat_eq (a := c) (by omega)]
  | case2 a b =>
    have ha := a.toNat_lt
    have hb := b.toNat_lt
    have hlast : base64Char (b.toNat % 16 * 4) ≠ '=' := base64Char_ne_pad (by omega)
    unfold b64encode b64decode
    rw [sextet_base64Char (by omega), sextet_base64Char (by omega), sextet_base64Char (by omega)]
    simp only [Option.bind_eq_bind, Option.bind_some, if_neg hlast, ↓reduceIte, ne_eq,
      not_true_eq_false]
    rw [ofNat_eq (a := a) (by omega), ofNat_eq (a := b) (by omega)]
  | case3 a =>
    have ha := a.toNat_lt
    unfold b64encode b64decode
    rw [sextet_base64Char (by omega), sextet_base64Char (by omega)]
    simp only [Option.bind_eq_bind, Option.bind_some, ↓reduceIte, ne_eq, not_true_eq_false]
    rw [ofNat_eq (a := a) (by omega)]
  | case4 => rfl

/-! ### UTF-8 -/

/-- `text.encode("utf-8")`. -/
def utf8Encode (text : String) : Bytes := text.toByteArray.data.toList

/-- `raw.decode("utf-8")`, `none` when it raises. -/
def utf8Decode (raw : Bytes) : Option String := String.fromUTF8? raw.toByteArray

theorem utf8Encode_injective {s t : String} (h : utf8Encode s = utf8Encode t) : s = t := by
  have hdata : s.toByteArray.data = t.toByteArray.data := Array.toList_inj.mp h
  exact String.toByteArray_inj.mp (ByteArray.ext hdata)

theorem utf8Decode_utf8Encode (text : String) : utf8Decode (utf8Encode text) = some text := by
  have hbytes : (utf8Encode text).toByteArray = text.toByteArray := by
    apply ByteArray.ext
    rw [List.data_toByteArray]
    rfl
  have hvalid : (utf8Encode text).toByteArray.IsValidUTF8 := hbytes ▸ text.isValidUTF8
  unfold utf8Decode String.fromUTF8?
  rw [dif_pos hvalid]
  exact congrArg some (String.toByteArray_inj.mp hbytes)

end Python
