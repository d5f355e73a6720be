import Mathlib.Data.List.DropRight
import VmDashboard.Python.Json
import VmDashboard.Python.Yaml

/-!
# Conversions of JSON values

`bool(value)`, `str(value)`, `int(value)` and `(value or [])[:n]` of a value that
came out of a JSON text.
-/

namespace Python

def Json.truthy : Json → Bool
  | .null => false
  | .bool b => b
  | .int n => n ≠ 0
  | .str s => s ≠ ""
  | .arr items => !items.isEmpty
  | .obj items => !items.isEmpty

/-- `value or other`. -/
def orElse (value other : Json) : Json := if value.truthy then value else other

mutual

/-- `repr(value)`. -/
def Json.reprText : Json → String
  | .null => "None"
  | .bool b => if b then "True" else "False"
  | .int n => toString n
  | .str s => Python.reprText s
  | .arr items => "[" ++ ", ".intercalate (reprItems items) ++ "]"
  | .obj items => "\x7b" ++ ", ".intercalate (reprFields items) ++ "\x7d"

def reprItems : List Json → List String
  | [] => []
  | value :: rest => value.reprText :: reprItems rest

def reprFields : List (String × Json) → List String
  | [] => []
  | (key, value) :: rest => (Python.reprText key ++ ": " ++ value.reprText) :: reprFields rest

end

/-- `str(value)`. -/
def Json.text : Json → String
  | .str s => s
  | value => value.reprText

/-- `str(value if value is not None else "")`, also of an absent value. -/
def Json.textOrEmpty : Option Json → String
  | none => ""
  | some .null => ""
  | some value => value.text

/-- `int(value)`, `none` when it raises. -/
def Json.int? : Json → Option ℤ
  | .bool b => some (if b then 1 else 0)
  | .int n => some n
  | .str s => parseInt s
  | _ => none

/-- `(value or [])[:n]`, `none` when it raises: only lists and texts have slices. -/
def Json.slice? (value : Json) (n : ℕ) : Option (List Json) :=
  if ¬value.truthy then some []
  else
    match value with
    | .arr items => some (items.take n)
    | .str s => some ((s.toList.take n).map fun c => .str (String.singleton c))
    | _ => none

/-! ### Texts that a strip leaves alone -/

theorem dropWhile_isSpace_of_all {cs : List Char} (h : ∀ c ∈ cs, isSpace c = false) :
    cs.dropWhile isSpace = cs := by
  cases cs with
  | nil => rfl
  | cons c cs => simp [h c List.mem_cons_self]

theorem strip_of_all {text : String} (h : ∀ c ∈ text.toList, isSpace c = false) :
    strip text = text := by
  unfold strip
  have hrev : ∀ c ∈ text.toList.reverse, isSpace c = false :=
    fun c hc => h c (List.mem_reverse.mp hc)
  rw [dropWhile_isSpace_of_all h, dropWhile_isSpace_of_all hrev, List.reverse_reverse,
    String.ofList_toList]

theorem strip_strip (text : String) : strip (strip text) = strip text := by
  have htext : (strip text).toList = (text.toList.dropWhile isSpace).rdropWhile isSpace :=
    String.toList_ofList
  have hfirst : ((text.toList.dropWhile isSpace).rdropWhile isSpace).dropWhile isSpace =
      (text.toList.dropWhile isSpace).rdropWhile isSpace := by
    cases hstripped : (text.toList.dropWhile isSpace).rdropWhile isSpace with
    | nil => rfl
    | cons c cs =>
      obtain ⟨rest, hrest⟩ := List.rdropWhile_prefix isSpace (text.toList.dropWhile isSpace)
      rw [hstripped] at hrest
      have hc := List.head?_dropWhile_not isSpace text.toList
      rw [← hrest] at hc
      exact List.dropWhile_cons_of_neg (by simpa using hc)
  have hlast := List.rdropWhile_idempotent isSpace (text.toList.dropWhile isSpace)
  have hstrip : strip (strip text) =
      String.ofList (((strip text).toList.dropWhile isSpace).rdropWhile isSpace) := rfl
  rw [hstrip, htext, hfirst, hlast, ← htext, String.ofList_toList]

theorem strip_append {xs ys : List Char} (hne : ys ≠ []) (hsolid : ∀ c ∈ ys, isSpace c = false) :
    strip (String.ofList (xs ++ ys)) = String.ofList (xs.dropWhile isSpace ++ ys) := by
  have hstop {cs : List Char} (zs : List Char) (hcs : cs ≠ []) (hall : ∀ c ∈ cs, isSpace c = false) :
      (cs ++ zs).dropWhile isSpace = cs ++ zs := by
    obtain ⟨c, rest, rfl⟩ := List.exists_cons_of_ne_nil hcs
    have hc : isSpace c = false := hall c List.mem_cons_self
    exact List.dropWhile_cons_of_neg (by simp [hc])
  have hfront : (xs ++ ys).dropWhile isSpace = xs.dropWhile isSpace ++ ys := by
    rw [List.dropWhile_append]
    split
    next hempty =>
      have hnil : xs.dropWhile isSpace = [] := List.isEmpty_iff.mp hempty
      have hys := hstop [] hne hsolid
      rw [List.append_nil] at hys
      rw [hnil, hys, List.nil_append]
    next => rfl
  unfold strip
  rw [String.toList_ofList, hfront, List.reverse_append,
    hstop _ (List.reverse_eq_nil_iff.not.mpr hne) fun c hc => hsolid c (List.mem_reverse.mp hc),
    ← List.reverse_append, List.reverse_reverse]

end Python
