import VmDashboard.Machine.Table
import VmDashboard.Python.Base64
import VmDashboard.Python.Text

/-!
# The settings (`services/config_service.py`)

Values by key and workgroup, where no workgroup is the global scope. They are encrypted in the
table `app_config` and kept in plain text in a cache of the process. The primary key of the table is
the key alone.
-/

namespace Settings
open Machine (Table)

/-- The Fernet keys of the process. The number is the time and the IV of a token. -/
structure Fernet where
  encrypt : ℕ → String → String
  decrypt : String → Option String
  encrypt_ne : ∀ iv value, encrypt iv value ≠ ""
  decrypt_encrypt : ∀ iv value, decrypt (encrypt iv value) = some value

/-- Tokens that show their value. -/
def clearFernet : Fernet where
  encrypt _ value := "token:" ++ value
  decrypt token :=
    if "token:".toList.isPrefixOf token.toList then some (String.ofList (token.toList.drop 6))
    else none
  encrypt_ne _ value h := by simpa using congrArg String.length h
  decrypt_encrypt _ value := by simp

structure AppConfig where
  key : String
  value : Option String
  workgroup : Option String
  deriving DecidableEq

abbrev Rows := Table AppConfig.key

/-- A key and its scope. -/
abbrev Slot := String × Option String

abbrev Cache := Slot → Option String

/-- `_looks_encrypted`. -/
def looksEncrypted (token : String) : Bool :=
  if !"gAAAAA".toList.isPrefixOf token.toList || token.toList.length < 76 then false
  else
    match Python.urlsafeB64decode (Python.utf8 token) with
    | some (version :: raw) => 57 ≤ raw.length + 1 && version = 0x80
    | _ => false

/-- `_decrypt`. -/
def plain (fernet : Fernet) (token : String) : String :=
  match fernet.decrypt token with
  | some value => value
  | none => if looksEncrypted token then "" else token

/-- What the column `value` of a row reads as. -/
def valueOf (fernet : Fernet) : Option String → String
  | none => ""
  | some token => if token = "" then "" else plain fernet token

/-- What a value is stored as. -/
def stored (fernet : Fernet) (iv : ℕ) (value : String) : String :=
  if value = "" then "" else fernet.encrypt iv value

@[simp] theorem valueOf_stored (fernet : Fernet) (iv : ℕ) (value : String) :
    valueOf fernet (some (stored fernet iv value)) = value := by
  unfold stored
  split
  next h => rw [h]; rfl
  next => simp only [valueOf, fernet.encrypt_ne, if_false, plain, fernet.decrypt_encrypt]

/-! ### The table -/

/-- The row of a slot. -/
def existing (rows : Rows) (slot : Slot) : Option AppConfig :=
  (rows.lookup slot.1).filter fun row => row.workgroup = slot.2

/-- What `_load_cache` reads. -/
def snapshot (fernet : Fernet) (rows : Rows) : Cache := fun slot =>
  (existing rows slot).map fun row => valueOf fernet row.value

def AppConfig.setValue (token : String) (row : AppConfig) : AppConfig :=
  { row with value := some token }

theorem AppConfig.setValue_key (token : String) (row : AppConfig) :
    (row.setValue token).key = row.key := rfl

/-- One pair of `_write`; `none` where the insert breaks the primary key. -/
def writeRow (fernet : Fernet) (iv : ℕ) (workgroup : Option String) (rows : Rows)
    (pair : String × String) : Option Rows :=
  match existing rows (pair.1, workgroup) with
  | some _ =>
    some (rows.modify pair.1 (.setValue (stored fernet iv pair.2)) (AppConfig.setValue_key _))
  | none => rows.insert ⟨pair.1, some (stored fernet iv pair.2), workgroup⟩

/-- The transaction of `_write`; `none` where it is rolled back. -/
def writeRows (fernet : Fernet) (iv : ℕ) (workgroup : Option String) (rows : Rows) :
    List (String × String) → Option Rows
  | [] => some rows
  | pair :: pairs =>
    (writeRow fernet iv workgroup rows pair).bind fun rows =>
      writeRows fernet iv workgroup rows pairs

/-- The transaction of `delete`. -/
def deleteRow (rows : Rows) (slot : Slot) : Rows :=
  match existing rows slot with
  | some _ => rows.erase slot.1
  | none => rows

/-! ### The cache -/

/-- The cache after a write of the pairs. -/
def cachePairs (cache : Cache) (workgroup : Option String) : List (String × String) → Cache
  | [] => cache
  | (key, value) :: pairs =>
    cachePairs (Function.update cache (key, workgroup) (some value)) workgroup pairs

/-- The lookup of `get`: the row of the workgroup, the global row, the default. -/
def find (values : Cache) (key default : String) (workgroup : Option String) : String :=
  match workgroup.bind fun name => values (key, some name) with
  | some value => value
  | none => (values (key, none)).getD default

/-- What `get_fresh` finds in the table: the value and the scope of its row. -/
def freshRow (fernet : Fernet) (rows : Rows) (key : String) (workgroup : Option String) :
    Option (Slot × String) :=
  match workgroup.bind fun name => snapshot fernet rows (key, some name) with
  | some value => some ((key, workgroup), value)
  | none => (snapshot fernet rows (key, none)).map fun value => ((key, none), value)

/-! ### What the operations do to a slot -/

theorem existing_eq_some {rows : Rows} {slot : Slot} {row : AppConfig} :
    existing rows slot = some row ↔ rows.lookup slot.1 = some row ∧ row.workgroup = slot.2 := by
  unfold existing
  rw [Option.filter_eq_some_iff, decide_eq_true_eq]

/-- No row of the key has another scope. -/
def Unscoped (rows : Rows) (slot : Slot) : Prop :=
  ∀ row ∈ rows.lookup slot.1, row.workgroup = slot.2

instance (rows : Rows) (slot : Slot) : Decidable (Unscoped rows slot) := by
  unfold Unscoped
  infer_instance

theorem unscoped_iff {rows : Rows} {slot : Slot} :
    Unscoped rows slot ↔ ∀ scope, scope ≠ slot.2 → existing rows (slot.1, scope) = none := by
  constructor
  · intro h scope hscope
    cases hrow : existing rows (slot.1, scope) with
    | none => rfl
    | some row =>
      obtain ⟨hlookup, hrow⟩ := existing_eq_some.mp hrow
      exact absurd (hrow.symm.trans (h row hlookup)) hscope
  · intro h row hrow
    by_contra hscope
    have hfound : existing rows (slot.1, row.workgroup) = some row :=
      existing_eq_some.mpr ⟨hrow, rfl⟩
    rw [h row.workgroup hscope] at hfound
    cases hfound

/-- A change of the row of a key, where that row is of the scope before and after. -/
theorem existing_update {rows after : Rows} {slot : Slot} {row : Option AppConfig}
    (h : Unscoped rows slot) (hrow : ∀ r ∈ row, r.workgroup = slot.2)
    (hafter : ∀ key, after.lookup key = if key = slot.1 then row else rows.lookup key) :
    existing after = Function.update (existing rows) slot row := by
  funext other
  rw [existing, hafter, Function.update_apply]
  by_cases hkey : other.1 = slot.1
  · rw [if_pos hkey]
    by_cases hscope : other.2 = slot.2
    · rw [if_pos (Prod.ext hkey hscope)]
      cases row with
      | none => rfl
      | some r => exact if_pos (decide_eq_true ((hrow r rfl).trans hscope.symm))
    · rw [if_neg fun hslot => hscope (congrArg Prod.snd hslot)]
      have hnone : existing rows other = none := by
        rw [← unscoped_iff.mp h other.2 hscope, ← hkey]
      rw [hnone]
      refine Option.filter_eq_none_iff.mpr fun r hr hsame => ?_
      exact hscope ((of_decide_eq_true hsame).symm.trans (hrow r hr))
  · rw [if_neg hkey, if_neg fun hslot => hkey (congrArg Prod.fst hslot)]
    rfl

/-- Where the key has no row, or one of the scope. -/
theorem writeRow_of_unscoped (fernet : Fernet) (iv : ℕ) {workgroup : Option String} {rows : Rows}
    {pair : String × String} (h : Unscoped rows (pair.1, workgroup)) :
    ∃ after, writeRow fernet iv workgroup rows pair = some after ∧
      existing after = Function.update (existing rows) (pair.1, workgroup)
        (some ⟨pair.1, some (stored fernet iv pair.2), workgroup⟩) := by
  have hscope : ∀ r ∈ some (AppConfig.mk pair.1 (some (stored fernet iv pair.2)) workgroup),
      r.workgroup = workgroup := by
    rintro r ⟨⟩
    rfl
  unfold writeRow
  cases hrow : existing rows (pair.1, workgroup) with
  | some row =>
    obtain ⟨hlookup, hgroup⟩ := existing_eq_some.mp hrow
    refine ⟨_, rfl, existing_update h hscope fun key => ?_⟩
    refine (rows.lookup_modify pair.1 key _ (AppConfig.setValue_key _)).trans ?_
    split
    next hkey =>
      have hkeyed : row.key = pair.1 := Machine.Table.lookup_key hlookup
      rw [hkey, hlookup, Option.map_some, AppConfig.setValue, hkeyed, hgroup]
    next => rfl
  | none =>
    have hnone : rows.lookup pair.1 = none := by
      cases hlookup : rows.lookup pair.1 with
      | none => rfl
      | some row =>
        rw [existing_eq_some.mpr ⟨hlookup, h row hlookup⟩] at hrow
        cases hrow
    have hsome : (rows.insert ⟨pair.1, some (stored fernet iv pair.2), workgroup⟩).isSome = true :=
      Machine.Table.insert_isSome_iff.mpr hnone
    obtain ⟨after, hins⟩ := Option.isSome_iff_exists.mp hsome
    exact ⟨after, hins, existing_update h hscope (Machine.Table.lookup_insert hins)⟩

/-- The insert of a key that has a row of another scope breaks the primary key. -/
theorem writeRow_of_scoped (fernet : Fernet) (iv : ℕ) {workgroup : Option String} {rows : Rows}
    {pair : String × String} (h : ¬Unscoped rows (pair.1, workgroup)) :
    writeRow fernet iv workgroup rows pair = none := by
  unfold Unscoped at h
  simp only [not_forall] at h
  obtain ⟨row, hlookup, hscope⟩ := h
  have hrow : existing rows (pair.1, workgroup) = none := by
    rw [existing, hlookup]
    exact Option.filter_eq_none_iff.mpr fun r hr hsame =>
      hscope (Option.some.inj hr ▸ of_decide_eq_true hsame)
  rw [writeRow, hrow]
  refine Option.not_isSome_iff_eq_none.mp fun hsome => ?_
  rw [Machine.Table.insert_isSome_iff.mp hsome] at hlookup
  cases hlookup

theorem unscoped_of_update {rows after : Rows} {slot : Slot} {row : Option AppConfig}
    (h : existing after = Function.update (existing rows) slot row) (key : String) :
    Unscoped after (key, slot.2) ↔ Unscoped rows (key, slot.2) := by
  have hsame : ∀ scope, scope ≠ slot.2 →
      existing after (key, scope) = existing rows (key, scope) := by
    intro scope hscope
    rw [h, Function.update_of_ne fun hslot => hscope (congrArg Prod.snd hslot)]
  rw [unscoped_iff, unscoped_iff]
  exact forall₂_congr fun scope hscope => by rw [hsame scope hscope]

theorem snapshot_of_update (fernet : Fernet) {rows after : Rows} {slot : Slot}
    {row : Option AppConfig} (h : existing after = Function.update (existing rows) slot row) :
    snapshot fernet after = Function.update (snapshot fernet rows) slot
      (row.map fun r => valueOf fernet r.value) := by
  funext other
  rw [snapshot, h, Function.update_apply, Function.update_apply]
  split <;> rfl

/-- A write that no row of another scope is in the way of. -/
theorem writeRows_of_unscoped (fernet : Fernet) (iv : ℕ) {workgroup : Option String} {rows : Rows}
    {pairs : List (String × String)} (h : ∀ pair ∈ pairs, Unscoped rows (pair.1, workgroup)) :
    ∃ after, writeRows fernet iv workgroup rows pairs = some after ∧
      snapshot fernet after = cachePairs (snapshot fernet rows) workgroup pairs ∧
      ∀ slot : Slot, slot.2 ≠ workgroup → existing after slot = existing rows slot := by
  induction pairs generalizing rows with
  | nil => exact ⟨rows, rfl, rfl, fun _ _ => rfl⟩
  | cons pair pairs ih =>
    obtain ⟨next, hwrite, hnext⟩ := writeRow_of_unscoped fernet iv (h pair List.mem_cons_self)
    have hpairs : ∀ pair ∈ pairs, Unscoped next (pair.1, workgroup) := fun pair hpair =>
      (unscoped_of_update hnext pair.1).mpr (h pair (List.mem_cons_of_mem _ hpair))
    obtain ⟨after, hrest, hsnapshot, hothers⟩ := ih hpairs
    refine ⟨after, ?_, ?_, fun slot hslot => (hothers slot hslot).trans ?_⟩
    · rw [writeRows, hwrite, Option.bind_some, hrest]
    · rw [hsnapshot, snapshot_of_update fernet hnext, Option.map_some, valueOf_stored]
      rfl
    · rw [hnext, Function.update_of_ne fun heq => hslot (congrArg Prod.snd heq)]

/-- A write that a row of another scope is in the way of. -/
theorem writeRows_of_scoped (fernet : Fernet) (iv : ℕ) {workgroup : Option String} {rows : Rows}
    {pairs : List (String × String)} (h : ¬∀ pair ∈ pairs, Unscoped rows (pair.1, workgroup)) :
    writeRows fernet iv workgroup rows pairs = none := by
  induction pairs generalizing rows with
  | nil => exact absurd (fun pair hpair => nomatch hpair) h
  | cons pair pairs ih =>
    by_cases hpair : Unscoped rows (pair.1, workgroup)
    · obtain ⟨next, hwrite, hnext⟩ := writeRow_of_unscoped fernet iv hpair
      rw [writeRows, hwrite, Option.bind_some]
      refine ih fun hrest => h fun other hother => ?_
      rcases List.mem_cons.mp hother with rfl | hother
      · exact hpair
      · exact (unscoped_of_update hnext other.1).mp (hrest other hother)
    · rw [writeRows, writeRow_of_scoped fernet iv hpair]
      rfl

theorem writeRows_eq_some {fernet : Fernet} {iv : ℕ} {workgroup : Option String} {rows after : Rows}
    {pairs : List (String × String)} (h : writeRows fernet iv workgroup rows pairs = some after) :
    snapshot fernet after = cachePairs (snapshot fernet rows) workgroup pairs := by
  by_cases hpairs : ∀ pair ∈ pairs, Unscoped rows (pair.1, workgroup)
  · obtain ⟨_, hwrite, hsnapshot, -⟩ := writeRows_of_unscoped fernet iv hpairs
    obtain rfl := Option.some.inj (hwrite.symm.trans h)
    exact hsnapshot
  · rw [writeRows_of_scoped fernet iv hpairs] at h
    cases h

/-- A delete takes the row of its slot only. -/
theorem existing_deleteRow (rows : Rows) (slot : Slot) :
    existing (deleteRow rows slot) = Function.update (existing rows) slot none := by
  unfold deleteRow
  cases hrow : existing rows slot with
  | some row =>
    obtain ⟨hlookup, hscope⟩ := existing_eq_some.mp hrow
    have hunscoped : Unscoped rows slot := by
      intro other hother
      obtain rfl := Option.some.inj (hlookup.symm.trans hother)
      exact hscope
    exact existing_update hunscoped (fun _ hr => nomatch hr) (rows.lookup_erase slot.1)
  | none =>
    have hsame := Function.update_eq_self slot (existing rows)
    rw [hrow] at hsame
    exact hsame.symm

end Settings
