import VmDashboard.Python.Json

/-!
# `==` of JSON values

`True == 1` holds, and the order of a dictionary's items does not matter.
-/

namespace Python

mutual

def Json.equal : Json → Json → Bool
  | .null, .null => true
  | .bool a, .bool b => a = b
  | .bool a, .int n => n = if a then 1 else 0
  | .int n, .bool b => n = if b then 1 else 0
  | .int n, .int m => n = m
  | .str s, .str t => s = t
  | .arr items, .arr others => equalItems items others
  | .obj items, .obj others => items.length = others.length && equalFields items others
  | _, _ => false

def equalItems : List Json → List Json → Bool
  | [], [] => true
  | value :: rest, other :: others => value.equal other && equalItems rest others
  | _, _ => false

/-- Every item of the first is one of the second. -/
def equalFields : List (String × Json) → Dict → Bool
  | [], _ => true
  | (key, value) :: rest, others =>
    (match others.get? key with
    | some other => value.equal other
    | none => false) && equalFields rest others

end

end Python
