import Mathlib.Data.List.Basic

/-!
# UTF-8 with replacement

`str.encode` and `bytes.decode("utf-8", "replace")`. What is no UTF-8 becomes one U+FFFD for each of
its longest parts that could have begun a character.
-/

namespace Python

def encodeUtf8 (text : String) : List UInt8 := text.toList.flatMap String.utf8EncodeChar

def isContinuation (b : UInt8) : Bool := 0x80 ≤ b && b ≤ 0xBF

/-- Whether the second byte may follow the first of a three or four byte character. -/
def secondFits (first second : UInt8) : Bool :=
  isContinuation second &&
    if first = 0xE0 then decide (0xA0 ≤ second)
    else if first = 0xED then decide (second ≤ 0x9F)
    else if first = 0xF0 then decide (0x90 ≤ second)
    else if first = 0xF4 then decide (second ≤ 0x8F)
    else true

/-- The length of the part in front that is replaced, where no character can be read. -/
def brokenLength : List UInt8 → ℕ
  | first :: second :: rest =>
    if 0xE0 ≤ first ∧ first ≤ 0xF4 ∧ secondFits first second = true then
      if 0xF0 ≤ first ∧ rest.head?.any isContinuation = true then 3 else 2
    else 1
  | _ => 1

/-- The character in front and the bytes it takes. -/
def decodeChar (bytes : List UInt8) : Char × ℕ :=
  match bytes.toByteArray.utf8DecodeChar? 0 with
  | some c => (c, c.utf8Size)
  | none => ('\uFFFD', brokenLength bytes)

/-- At most `fuel` characters. Each takes a byte at least. -/
def decodeFrom : ℕ → List UInt8 → List Char
  | 0, _ => []
  | _, [] => []
  | fuel + 1, b :: bytes =>
    let (c, taken) := decodeChar (b :: bytes)
    c :: decodeFrom fuel ((b :: bytes).drop taken)

/-- `decode("utf-8", "replace")`. -/
def decodeReplace (bytes : List UInt8) : String := String.ofList (decodeFrom bytes.length bytes)

example : decodeReplace [0x41, 0xE2, 0x82, 0x41, 0xFF] = "A\uFFFDA\uFFFD" := by decide +kernel

theorem decodeChar_append (c : Char) (bytes : List UInt8) :
    decodeChar (String.utf8EncodeChar c ++ bytes) = (c, c.utf8Size) := by
  unfold decodeChar
  rw [List.toByteArray_append, ByteArray.utf8DecodeChar?_utf8EncodeChar_append]

theorem decodeFrom_encode (cs : List Char) {fuel : ℕ}
    (h : (cs.flatMap String.utf8EncodeChar).length ≤ fuel) :
    decodeFrom fuel (cs.flatMap String.utf8EncodeChar) = cs := by
  induction cs generalizing fuel with
  | nil => cases fuel <;> rfl
  | cons c cs ih =>
    have hpos := Char.utf8Size_pos c
    have hlength := String.length_utf8EncodeChar c
    rw [List.flatMap_cons, List.length_append, hlength] at h
    rw [List.flatMap_cons]
    cases hbytes : String.utf8EncodeChar c ++ cs.flatMap String.utf8EncodeChar with
    | nil =>
      have hempty := congrArg List.length hbytes
      rw [List.length_append, hlength, List.length_nil] at hempty
      omega
    | cons b bytes =>
      obtain ⟨fuel, rfl⟩ := Nat.exists_eq_succ_of_ne_zero (n := fuel) (by omega)
      rw [decodeFrom, ← hbytes, decodeChar_append]
      dsimp only
      rw [List.drop_append_of_le_length (Nat.le_of_eq hlength.symm), ← hlength, List.drop_length, List.nil_append, ih]
      omega

/-- What is encoded is decoded. -/
theorem decodeReplace_encode (text : String) : decodeReplace (encodeUtf8 text) = text := by
  unfold decodeReplace encodeUtf8
  rw [decodeFrom_encode text.toList (Nat.le_refl _), String.ofList_toList]

end Python
