import Mathlib.Data.List.TakeWhile
import VmDashboard.Python.Text
import VmDashboard.ServiceAccounts.Account

/-!
# The scope of a workload token

`parse_scope`, `format_scope` and `granted_scope` of `services/service_accounts.py`. A scope that was
parsed is clean: its names can be written with colons and spaces between them and read back.
-/

namespace ServiceAccounts
open Machine (Table)

/-- `text.split()`. -/
def words (text : String) : List (List Char) :=
  (text.toList.splitOnP Python.isSpace).filter (· ≠ [])

/-- `scope, sep, level = part.partition(":")`, both sides non-empty. -/
def scopePart (part : List Char) : Option (String × String) :=
  let scope := part.takeWhile (· ≠ ':')
  let level := (part.dropWhile (· ≠ ':')).drop 1
  if scope = [] ∨ level = [] then none else some (String.ofList scope, String.ofList level)

def addLevel (out : TokenScope) (pair : String × String) : TokenScope :=
  let levels := out.allowed pair.1
  out.put (pair.1, if pair.2 ∈ levels then levels else levels ++ [pair.2])

def parseParts : TokenScope → List (List Char) → Except String TokenScope
  | out, [] => .ok out
  | out, part :: parts =>
    match scopePart part with
    | some pair => parseParts (addLevel out pair) parts
    | none => .error ("Scope " ++ Python.reprText (String.ofList part) ++
        " is not of the form <scope>:<level>, e.g. vms:read.")

def sortLevels (item : String × List String) : String × List String :=
  (item.1, item.2.insertionSort (· ≤ ·))

def parseScope (raw : Option String) : Except String (Option TokenScope) :=
  match words (raw.getD "") with
  | [] => .ok none
  | parts => (parseParts .empty parts).map fun out => some (out.map sortLevels fun _ => rfl)

/-- The texts that `format_scope` joins. -/
def scopeTexts (scope : TokenScope) : List String :=
  (scope.rows.insertionSort (·.1 ≤ ·.1)).flatMap fun item =>
    (item.2.insertionSort (· ≤ ·)).map fun level => item.1 ++ ":" ++ level

def formatScope : Option TokenScope → String
  | none => ""
  | some scope => " ".intercalate (scopeTexts scope)

/-- `held.get(scope, [])`; a flag is skipped, as a scope with no level in common is. -/
def heldLevels (held : PermissionMap) (scope : String) : List String :=
  match held.get scope with
  | some (.levels names) => names
  | _ => []

def keptLevels (held : PermissionMap) (item : String × List String) : String × List String :=
  (item.1, sortedSet (item.2.filter (· ∈ heldLevels held item.1)))

def grantedScope (user : User) (requested : Option TokenScope) : Option TokenScope :=
  requested.map fun requested =>
    (requested.map (keptLevels user.effectivePermissions) fun _ => rfl).filter fun item => item.2 ≠ []

/-! ### What a scope allows -/

def TokenScope.Allows (scope : TokenScope) (name level : String) : Prop :=
  level ∈ scope.allowed name

theorem allows_iff {scope : TokenScope} {name level : String} :
    scope.Allows name level ↔ ∃ levels, scope.lookup name = some (name, levels) ∧ level ∈ levels := by
  unfold TokenScope.Allows TokenScope.allowed
  cases hlookup : scope.lookup name with
  | none => simp
  | some item =>
    obtain ⟨key, levels⟩ := item
    obtain rfl : key = name := Table.lookup_key hlookup
    simp

theorem allows_iff_mem {scope : TokenScope} {name level : String} :
    scope.Allows name level ↔ ∃ levels, (name, levels) ∈ scope.rows ∧ level ∈ levels := by
  rw [allows_iff]
  refine exists_congr fun levels => and_congr_left fun _ => ?_
  rw [Table.lookup_eq_some]
  exact ⟨And.left, fun h => ⟨h, rfl⟩⟩

theorem allows_empty (name level : String) : ¬TokenScope.Allows .empty name level := by
  rw [allows_iff_mem]
  rintro ⟨levels, hmem, -⟩
  cases hmem

theorem allows_addLevel {out : TokenScope} {pair : String × String} {name level : String} :
    (addLevel out pair).Allows name level ↔ out.Allows name level ∨ (name, level) = pair := by
  obtain ⟨scope, added⟩ := pair
  unfold addLevel TokenScope.Allows
  rw [TokenScope.allowed, Table.lookup_put]
  by_cases hname : name = scope
  · subst hname
    simp only [↓reduceIte, Option.map_some, Option.getD_some, Prod.mk.injEq, true_and]
    split
    next hmem =>
      refine ⟨.inl, fun h => h.elim id fun heq => heq ▸ hmem⟩
    next => rw [List.mem_append, List.mem_singleton]
  · rw [if_neg hname]
    simp [hname, TokenScope.allowed]

theorem allows_sortLevels {scope : TokenScope} {name level : String} :
    TokenScope.Allows (scope.map sortLevels fun _ => rfl) name level ↔ scope.Allows name level := by
  simp only [allows_iff_mem, Table.map, List.mem_map]
  constructor
  · rintro ⟨levels, ⟨⟨key, names⟩, hitem, heq⟩, hlevel⟩
    simp only [sortLevels, Prod.mk.injEq] at heq
    obtain ⟨rfl, rfl⟩ := heq
    exact ⟨names, hitem, (List.mem_insertionSort _).mp hlevel⟩
  · rintro ⟨levels, hitem, hlevel⟩
    exact ⟨_, ⟨(name, levels), hitem, rfl⟩, (List.mem_insertionSort _).mpr hlevel⟩

/-- What the parts of a text say is allowed. -/
theorem allows_parseParts {out scope : TokenScope} {parts : List (List Char)}
    (h : parseParts out parts = .ok scope) (name level : String) :
    scope.Allows name level ↔ out.Allows name level ∨ ∃ part ∈ parts,
      scopePart part = some (name, level) := by
  induction parts generalizing out with
  | nil =>
    obtain rfl := Except.ok.inj h
    simp
  | cons part parts ih =>
    unfold parseParts at h
    split at h
    next pair hpair =>
      rw [ih h, allows_addLevel, or_assoc]
      simp only [List.mem_cons, exists_eq_or_imp, hpair, Option.some.injEq, @eq_comm _ pair]
    next => cases h

theorem allows_grantedScope {user : User} {requested granted : TokenScope}
    (h : grantedScope user (some requested) = some granted) (name level : String) :
    granted.Allows name level ↔
      requested.Allows name level ∧ level ∈ heldLevels user.effectivePermissions name := by
  obtain rfl := Option.some.inj h
  simp only [allows_iff_mem, Table.filter, Table.map, List.mem_filter, List.mem_map]
  constructor
  · rintro ⟨levels, ⟨⟨⟨key, names⟩, hitem, heq⟩, -⟩, hlevel⟩
    simp only [keptLevels, Prod.mk.injEq] at heq
    obtain ⟨rfl, rfl⟩ := heq
    rw [mem_sortedSet, List.mem_filter] at hlevel
    exact ⟨⟨names, hitem, hlevel.1⟩, of_decide_eq_true hlevel.2⟩
  · rintro ⟨⟨levels, hitem, hlevel⟩, hheld⟩
    have hkept : level ∈ sortedSet
        (levels.filter (· ∈ heldLevels user.effectivePermissions name)) := by
      rw [mem_sortedSet, List.mem_filter]
      exact ⟨hlevel, decide_eq_true hheld⟩
    exact ⟨_, ⟨⟨(name, levels), hitem, rfl⟩, decide_eq_true (List.ne_nil_of_mem hkept)⟩, hkept⟩

/-! ### Writing a scope and reading it back -/

/-- No name is empty or holds a space, and no scope holds a colon. -/
def CleanPair (name level : String) : Prop :=
  name ≠ "" ∧ level ≠ "" ∧ ':' ∉ name.toList ∧
    (∀ c ∈ name.toList, Python.isSpace c = false) ∧ ∀ c ∈ level.toList, Python.isSpace c = false

def Clean (scope : TokenScope) : Prop := ∀ name level, scope.Allows name level → CleanPair name level

theorem ofList_ne_empty {chars : List Char} (h : chars ≠ []) : String.ofList chars ≠ "" := by
  intro heq
  have hchars := congrArg String.toList heq
  rw [String.toList_ofList] at hchars
  exact h hchars

theorem cleanPair_of_part {text : String} {part : List Char} (hpart : part ∈ words text)
    {name level : String} (h : scopePart part = some (name, level)) : CleanPair name level := by
  have hfree := Python.splitOnP_free (List.mem_of_mem_filter hpart)
  unfold scopePart at h
  dsimp only at h
  split at h
  · cases h
  next hne =>
    obtain ⟨hscope, hlevel⟩ := not_or.mp hne
    simp only [Option.some.injEq, Prod.mk.injEq] at h
    obtain ⟨rfl, rfl⟩ := h
    refine ⟨ofList_ne_empty hscope, ofList_ne_empty hlevel, ?_, ?_, ?_⟩
    · rw [String.toList_ofList]
      intro hcolon
      simpa using List.mem_takeWhile_imp hcolon
    · rw [String.toList_ofList]
      exact fun c hc => hfree c ((List.takeWhile_sublist _).subset hc)
    · rw [String.toList_ofList]
      exact fun c hc => hfree c ((List.dropWhile_sublist _).subset (List.mem_of_mem_drop hc))

/-- The part that a clean pair is written as is read back. -/
theorem scopePart_pair {name level : String} (h : CleanPair name level) :
    scopePart (name ++ ":" ++ level).toList = some (name, level) := by
  obtain ⟨hname, hlevel, hcolon, -, -⟩ := h
  have hkeep : ∀ c ∈ name.toList, decide (c ≠ ':') = true :=
    fun c hc => decide_eq_true fun heq => hcolon (heq ▸ hc)
  have htext : (name ++ ":" ++ level).toList = name.toList ++ ':' :: level.toList := by
    simp
  have hne : ∀ {text : String}, text ≠ "" → text.toList ≠ [] := by
    intro text htext hnil
    exact htext (String.toList_injective hnil)
  unfold scopePart
  rw [htext, List.takeWhile_append_of_pos hkeep, List.dropWhile_append_of_pos hkeep]
  simp [hne hname, hne hlevel]

theorem parseScope_clean {raw : Option String} {scope : TokenScope}
    (h : parseScope raw = .ok (some scope)) : Clean scope := by
  intro name level hallows
  unfold parseScope at h
  split at h
  · cases h
  · cases hparts : parseParts .empty (words (raw.getD "")) with
    | error message =>
      rw [hparts] at h
      cases h
    | ok out =>
      rw [hparts] at h
      obtain rfl := Option.some.inj (Except.ok.inj h)
      rw [allows_sortLevels, allows_parseParts hparts] at hallows
      rcases hallows with hempty | ⟨part, hpart, hpair⟩
      · exact absurd hempty (allows_empty name level)
      · exact cleanPair_of_part hpart hpair

theorem mem_scopeTexts {scope : TokenScope} {text : String} :
    text ∈ scopeTexts scope ↔ ∃ name level, scope.Allows name level ∧
      text = name ++ ":" ++ level := by
  simp only [scopeTexts, List.mem_flatMap, List.mem_map, List.mem_insertionSort, allows_iff_mem]
  constructor
  · rintro ⟨⟨name, levels⟩, hitem, level, hlevel, rfl⟩
    exact ⟨name, level, ⟨levels, hitem, hlevel⟩, rfl⟩
  · rintro ⟨name, level, ⟨levels, hitem, hlevel⟩, rfl⟩
    exact ⟨(name, levels), hitem, level, hlevel, rfl⟩

theorem words_formatScope {scope : TokenScope} (h : Clean scope) :
    words (formatScope (some scope)) = (scopeTexts scope).map String.toList := by
  have htexts : ∀ text ∈ scopeTexts scope, text.toList ≠ [] ∧
      ∀ c ∈ text.toList, Python.isSpace c = false := by
    intro text htext
    obtain ⟨name, level, hallows, rfl⟩ := mem_scopeTexts.mp htext
    obtain ⟨-, -, -, hname, hlevel⟩ := h name level hallows
    constructor
    · simp
    · intro c hc
      simp only [String.toList_append, List.mem_append] at hc
      rcases hc with (hc | hc) | hc
      · exact hname c hc
      · obtain rfl := List.mem_singleton.mp hc
        decide
      · exact hlevel c hc
  unfold words formatScope
  by_cases hnil : scopeTexts scope = []
  · simp only [hnil]
    rfl
  · have hjoin : (" ".intercalate (scopeTexts scope)).toList =
        [' '].intercalate ((scopeTexts scope).map String.toList) := by
      rw [String.toList_intercalate]
      rfl
    rw [hjoin, Python.splitOnP_intercalate Python.isSpace (by decide) (by simpa using hnil)]
    · refine List.filter_eq_self.mpr fun chars hchars => ?_
      obtain ⟨text, htext, rfl⟩ := List.mem_map.mp hchars
      exact decide_eq_true (htexts text htext).1
    · intro chars hchars
      obtain ⟨text, htext, rfl⟩ := List.mem_map.mp hchars
      exact (htexts text htext).2

theorem parseParts_eq_ok {parts : List (List Char)} (h : ∀ part ∈ parts, (scopePart part).isSome)
    (out : TokenScope) : ∃ scope, parseParts out parts = .ok scope := by
  induction parts generalizing out with
  | nil => exact ⟨out, rfl⟩
  | cons part parts ih =>
    obtain ⟨pair, hpair⟩ := Option.isSome_iff_exists.mp (h part List.mem_cons_self)
    obtain ⟨scope, hscope⟩ := ih (fun p hp => h p (List.mem_cons_of_mem part hp)) (addLevel out pair)
    refine ⟨scope, ?_⟩
    unfold parseParts
    rw [hpair]
    exact hscope

/-- A clean scope is read back from its text. -/
theorem parseScope_formatScope {scope : TokenScope} (h : Clean scope) :
    ∃ found, parseScope (some (formatScope (some scope))) = .ok found ∧
      ∀ name level, TokenScope.Allows (found.getD .empty) name level ↔ scope.Allows name level := by
  have hparts : ∀ part ∈ words (formatScope (some scope)), ∃ name level,
      scope.Allows name level ∧ scopePart part = some (name, level) := by
    intro part hpart
    rw [words_formatScope h] at hpart
    obtain ⟨text, htext, rfl⟩ := List.mem_map.mp hpart
    obtain ⟨name, level, hallows, rfl⟩ := mem_scopeTexts.mp htext
    exact ⟨name, level, hallows, scopePart_pair (h name level hallows)⟩
  have hread : ∀ name level, (∃ part ∈ words (formatScope (some scope)),
      scopePart part = some (name, level)) ↔ scope.Allows name level := by
    intro name level
    constructor
    · rintro ⟨part, hpart, hpair⟩
      obtain ⟨name', level', hallows, hpair'⟩ := hparts part hpart
      obtain ⟨rfl, rfl⟩ := Prod.mk.inj (Option.some.inj (hpair'.symm.trans hpair))
      exact hallows
    · intro hallows
      refine ⟨_, ?_, scopePart_pair (h name level hallows)⟩
      rw [words_formatScope h]
      exact List.mem_map_of_mem (mem_scopeTexts.mpr ⟨name, level, hallows, rfl⟩)
  obtain ⟨out, hout⟩ := parseParts_eq_ok (fun part hpart => by
    obtain ⟨name, level, -, hpair⟩ := hparts part hpart
    rw [hpair]
    rfl) .empty
  unfold parseScope
  split
  next hnil =>
    refine ⟨none, rfl, fun name level => ?_⟩
    rw [Option.getD_some] at hnil
    rw [← hread, hnil]
    simp [allows_empty]
  next =>
    rw [Option.getD_some, hout]
    refine ⟨_, rfl, fun name level => ?_⟩
    rw [Option.getD_some, allows_sortLevels, allows_parseParts hout, hread]
    simp [allows_empty]

end ServiceAccounts
