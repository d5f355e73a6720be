import Mathlib.Data.List.Infix

/-!
# The character classes and the anchor the dashboard's patterns use

`\d` is any character of the Unicode category Nd, which is 66 runs of ten. A
pattern that ends in `$` also matches before a final line break.
-/

namespace Python

def decimalZeros : List ℕ :=
  [0x30, 0x660, 0x6F0, 0x7C0, 0x966, 0x9E6, 0xA66, 0xAE6, 0xB66, 0xBE6, 0xC66, 0xCE6, 0xD66, 0xDE6,
   0xE50, 0xED0, 0xF20, 0x1040, 0x1090, 0x17E0, 0x1810, 0x1946, 0x19D0, 0x1A80, 0x1A90, 0x1B50,
   0x1BB0, 0x1C40, 0x1C50, 0xA620, 0xA8D0, 0xA900, 0xA9D0, 0xA9F0, 0xAA50, 0xABF0, 0xFF10, 0x104A0,
   0x10D30, 0x11066, 0x110F0, 0x11136, 0x111D0, 0x112F0, 0x11450, 0x114D0, 0x11650, 0x116C0,
   0x11730, 0x118E0, 0x11950, 0x11C50, 0x11D50, 0x11DA0, 0x16A60, 0x16AC0, 0x16B50, 0x1D7CE,
   0x1D7D8, 0x1D7E2, 0x1D7EC, 0x1D7F6, 0x1E140, 0x1E2F0, 0x1E950, 0x1FBF0]

/-- `\d`. -/
def isDecimal (c : Char) : Bool :=
  decimalZeros.any fun first => first ≤ c.toNat && c.toNat < first + 10

def decimalValue (c : Char) : ℕ :=
  match decimalZeros.find? fun first => first ≤ c.toNat && c.toNat < first + 10 with
  | some first => c.toNat - first
  | none => 0

def isLowerHex (c : Char) : Bool := "0123456789abcdef".toList.contains c

/-- What a pattern anchored with `$` sees of the text. -/
def beforeEnd (cs : List Char) : List Char :=
  if cs.getLast? = some '\n' then cs.dropLast else cs

/-- `^\d+\.\d+\.\d+$`. -/
def isVersion (text : String) : Bool :=
  match (beforeEnd text.toList).splitOn '.' with
  | [major, minor, patch] =>
    [major, minor, patch].all fun part => !part.isEmpty && part.all isDecimal
  | _ => false

/-- `^sha256:[0-9a-f]{64}$`. -/
def isDigest (text : String) : Bool :=
  let cs := beforeEnd text.toList
  decide ("sha256:".toList <+: cs) && cs.length = 71 && (cs.drop 7).all isLowerHex

example : isVersion "2.10.0\n" = true ∧ isVersion "2.10" = false := by decide

end Python
