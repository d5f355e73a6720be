import Mathlib.Data.Nat.Notation

/-!
# JSON values and `json.dumps`

The values the dashboard stores in metadata columns (no floating-point
numbers), a dictionary as its items in insertion order, `dict.update`, and the
text `json.dumps` writes with its default separators and `ensure_ascii`.
-/

namespace Python

inductive Json where
  | null
  | bool (b : Bool)
  | int (n : Int)
  | str (s : String)
  | arr (items : List Json)
  | obj (items : List (String × Json))

abbrev Dict := List (String × Json)

def Dict.get? (d : Dict) (key : String) : Option Json :=
  (d.find? fun item => item.1 = key).map Prod.snd

/-- `d[key] = value`: a present key keeps its place, a new one goes last. -/
def Dict.set (d : Dict) (key : String) (value : Json) : Dict :=
  if d.any fun item => item.1 = key then
    d.map fun item => if item.1 = key then (key, value) else item
  else d ++ [(key, value)]

/-- `existing.update(result)`. -/
def Dict.update (existing result : Dict) : Dict :=
  result.foldl (fun d item => d.set item.1 item.2) existing

/-! ### Lookups after a write -/

theorem Dict.get?_cons (item : String × Json) (d : Dict) (key : String) :
    Dict.get? (item :: d) key = if item.1 = key then some item.2 else d.get? key := by
  by_cases h : item.1 = key <;> simp [Dict.get?, h]

theorem Dict.get?_set_self (d : Dict) (key : String) (value : Json) :
    (d.set key value).get? key = some value := by
  unfold Dict.set
  split
  next hpresent =>
    induction d with
    | nil => cases hpresent
    | cons item d ih =>
      rw [List.map_cons, Dict.get?_cons]
      by_cases hitem : item.1 = key
      · simp only [hitem, if_true]
      · simp only [List.any_cons, hitem, decide_false, Bool.false_or] at hpresent
        simp only [hitem, if_false]
        exact ih hpresent
  next habsent =>
    have hnone : d.find? (fun item => decide (item.1 = key)) = none :=
      List.find?_eq_none.mpr fun item hitem hkey => habsent (List.any_eq_true.mpr ⟨item, hitem, hkey⟩)
    simp [Dict.get?, List.find?_append, hnone]

theorem Dict.get?_set_of_ne (d : Dict) {key key' : String} (value : Json) (h : key ≠ key') :
    (d.set key value).get? key' = d.get? key' := by
  unfold Dict.set
  split
  next hpresent =>
    clear hpresent
    induction d with
    | nil => rfl
    | cons item d ih =>
      rw [List.map_cons, Dict.get?_cons, Dict.get?_cons, ih]
      by_cases hitem : item.1 = key
      · simp only [hitem, if_true, if_neg h]
      · simp only [hitem, if_false]
  next => simp [Dict.get?, List.find?_append, h]

theorem Dict.get?_update {d result : Dict} {key : String}
    (h : ∀ item ∈ result, item.1 = key → d.get? key = some item.2) :
    (d.update result).get? key = d.get? key := by
  unfold Dict.update
  induction result generalizing d with
  | nil => rfl
  | cons item result ih =>
    have hset : (d.set item.1 item.2).get? key = d.get? key := by
      by_cases hkey : item.1 = key
      · rw [hkey, Dict.get?_set_self, h item List.mem_cons_self hkey]
      · exact d.get?_set_of_ne item.2 hkey
    refine (ih fun item' hitem' hkey => ?_).trans hset
    rw [hset]
    exact h item' (List.mem_cons_of_mem item hitem') hkey

/-! ### Texts -/

def Json.str? : Json → Option String
  | .str s => some s
  | _ => none

def hexDigit (n : ℕ) : Char := "0123456789abcdef".toList.getD n '0'

/-- `\uXXXX` of one UTF-16 unit. -/
def escapeUnit (n : ℕ) : String :=
  "\\u" ++ String.ofList [hexDigit (n / 4096 % 16), hexDigit (n / 256 % 16),
    hexDigit (n / 16 % 16), hexDigit (n % 16)]

def escapeChar (c : Char) : String :=
  if c = '"' then "\\\""
  else if c = '\\' then "\\\\"
  else if c = '\n' then "\\n"
  else if c = '\r' then "\\r"
  else if c = '\t' then "\\t"
  else if c.toNat = 8 then "\\b"
  else if c.toNat = 12 then "\\f"
  else if 32 ≤ c.toNat ∧ c.toNat ≤ 126 then String.singleton c
  else if c.toNat < 65536 then escapeUnit c.toNat
  else
    -- outside the basic plane: a surrogate pair
    escapeUnit (0xD800 + (c.toNat - 65536) / 1024) ++ escapeUnit (0xDC00 + (c.toNat - 65536) % 1024)

def escapeText (s : String) : String :=
  "\"" ++ String.join (s.toList.map escapeChar) ++ "\""

mutual

/-- `json.dumps(value)`. -/
def Json.dumps : Json → String
  | .null => "null"
  | .bool b => if b then "true" else "false"
  | .int n => toString n
  | .str s => escapeText s
  | .arr items => "[" ++ ", ".intercalate (dumpsItems items) ++ "]"
  | .obj items => "\x7b" ++ ", ".intercalate (dumpsFields items) ++ "\x7d"

def dumpsItems : List Json → List String
  | [] => []
  | value :: rest => value.dumps :: dumpsItems rest

def dumpsFields : List (String × Json) → List String
  | [] => []
  | (key, value) :: rest => (escapeText key ++ ": " ++ value.dumps) :: dumpsFields rest

end

example : (Json.obj [("n", .int 3), ("s", .str "é\n")]).dumps =
    "\x7b\"n\": 3, \"s\": \"\\u00e9\\n\"\x7d" := by decide

/-! ### Equality is decided along the value -/

mutual

def Json.decEq : (a b : Json) → Decidable (a = b)
  | .null, .null => isTrue rfl
  | .bool a, .bool b => decidable_of_iff (a = b) (by simp)
  | .int a, .int b => decidable_of_iff (a = b) (by simp)
  | .str a, .str b => decidable_of_iff (a = b) (by simp)
  | .arr a, .arr b =>
    match decEqItems a b with
    | isTrue h => isTrue (congrArg _ h)
    | isFalse h => isFalse fun he => h (Json.arr.inj he)
  | .obj a, .obj b =>
    match decEqFields a b with
    | isTrue h => isTrue (congrArg _ h)
    | isFalse h => isFalse fun he => h (Json.obj.inj he)
  | .null, .bool _ | .null, .int _ | .null, .str _ | .null, .arr _ | .null, .obj _
  | .bool _, .null | .bool _, .int _ | .bool _, .str _ | .bool _, .arr _ | .bool _, .obj _
  | .int _, .null | .int _, .bool _ | .int _, .str _ | .int _, .arr _ | .int _, .obj _
  | .str _, .null | .str _, .bool _ | .str _, .int _ | .str _, .arr _ | .str _, .obj _
  | .arr _, .null | .arr _, .bool _ | .arr _, .int _ | .arr _, .str _ | .arr _, .obj _
  | .obj _, .null | .obj _, .bool _ | .obj _, .int _ | .obj _, .str _ | .obj _, .arr _ =>
    isFalse nofun

def decEqItems : (a b : List Json) → Decidable (a = b)
  | [], [] => isTrue rfl
  | [], _ :: _ => isFalse nofun
  | _ :: _, [] => isFalse nofun
  | a :: as, b :: bs =>
    match Json.decEq a b, decEqItems as bs with
    | isTrue h, isTrue h' => isTrue (by rw [h, h'])
    | isFalse h, _ => isFalse fun he => h (List.cons.inj he).1
    | _, isFalse h => isFalse fun he => h (List.cons.inj he).2

def decEqFields : (a b : List (String × Json)) → Decidable (a = b)
  | [], [] => isTrue rfl
  | [], _ :: _ => isFalse nofun
  | _ :: _, [] => isFalse nofun
  | (k, a) :: as, (k', b) :: bs =>
    match decEq k k', Json.decEq a b, decEqFields as bs with
    | isTrue hk, isTrue h, isTrue h' => isTrue (by rw [hk, h, h'])
    | isFalse h, _, _ => isFalse fun he => h (Prod.ext_iff.mp (List.cons.inj he).1).1
    | _, isFalse h, _ => isFalse fun he => h (Prod.ext_iff.mp (List.cons.inj he).1).2
    | _, _, isFalse h => isFalse fun he => h (List.cons.inj he).2

end

instance : DecidableEq Json := Json.decEq

end Python
