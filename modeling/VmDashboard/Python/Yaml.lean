import VmDashboard.Python.Regex
import VmDashboard.Python.Text

/-!
# YAML values, as `yaml.SafeLoader` builds them

A scalar of a type the dashboard never asks for (a float, a date, bytes) is its
text, its truth value and what `int` makes of it.
-/

namespace Python

inductive Yaml where
  | null
  | bool (b : Bool)
  | int (n : ℤ)
  | str (s : String)
  | scalar (text : String) (truthy : Bool) (number : Option ℤ)
  | seq (items : List Yaml)
  | set (items : List Yaml)
  | map (items : List (Yaml × Yaml))

/-- `bool(value)`. -/
def Yaml.truthy : Yaml → Bool
  | .null => false
  | .bool b => b
  | .int n => n ≠ 0
  | .str s => s ≠ ""
  | .scalar _ truthy _ => truthy
  | .seq items => !items.isEmpty
  | .set items => !items.isEmpty
  | .map items => !items.isEmpty

/-- `str(value)`. The text of a collection starts with a bracket or a brace, or is `set()`;
no reader of this text accepts one. -/
def Yaml.text? : Yaml → Option String
  | .null => some "None"
  | .bool b => some (if b then "True" else "False")
  | .int n => some (toString n)
  | .str s => some s
  | .scalar text _ _ => some text
  | _ => none

/-- `int(text)`. -/
def parseInt (text : String) : Option ℤ :=
  let body := (strip text).toList
  let (negative, digits) := match body with
    | '-' :: rest => (true, rest)
    | '+' :: rest => (false, rest)
    | rest => (false, rest)
  let groups := digits.splitOn '_'
  let all := groups.flatten
  if groups.all (fun group => !group.isEmpty && group.all isDecimal) && all.length ≤ 4300 then
    let n : ℕ := all.foldl (fun n c => n * 10 + decimalValue c) 0
    some (if negative then -n else n)
  else none

/-- `int(value)`. -/
def Yaml.int? : Yaml → Option ℤ
  | .bool b => some (if b then 1 else 0)
  | .int n => some n
  | .str s => parseInt s
  | .scalar _ _ number => number
  | _ => none

/-- `value.get(key)` of a mapping, `none` where it is absent. -/
def Yaml.get? (key : String) : Yaml → Option Yaml
  | .map items => (items.find? fun item => match item.1 with
      | .str s => s = key
      | _ => false).map Prod.snd
  | _ => none

def Yaml.isMap : Yaml → Bool
  | .map _ => true
  | _ => false

/-- `for item in value`. -/
def Yaml.iterate? : Yaml → Option (List Yaml)
  | .str s => some (s.toList.map fun c => .str (String.singleton c))
  | .seq items => some items
  | .set items => some items
  | .map items => some (items.map Prod.fst)
  | _ => none

end Python
