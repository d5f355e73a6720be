import VmDashboard.Databases.Sql

/-!
# The names of ephemeral accounts

A name takes the request id from `functions/fnruntime/contract.py`: the correlation header of the
platform, or a fresh UUID.
-/

namespace Databases
open Python (beforeEnd lower lowerChars_ascii)

def requestIdHeaders : List String :=
  ["x-amzn-trace-id", "x-azure-functions-invocationid", "x-cloud-trace-context", "traceparent",
    "x-request-id"]

/-- `_request_id_from`; `fresh` is `str(uuid.uuid4())`. -/
def requestIdFrom (headers : List (String × String)) (fresh : String) : String :=
  match (requestIdHeaders.filterMap fun name => headers.lookup name).find? (· ≠ "") with
  | some val => String.ofList (val.toList.take 200)
  | none => fresh

/-- What the name of a grant's account is made from. -/
structure Grant where
  identity : String
  headers : List (String × String)
  fresh : String
  engine : String

def Grant.requestId (g : Grant) : String := requestIdFrom g.headers g.fresh

def Grant.username (g : Grant) : String := ephemeralUsername g.identity g.requestId g.engine

/-- The readable part, cut to what the suffix leaves of the limit. -/
def readablePart (identity token engine : String) : List Char :=
  let limit := maxIdentifierLength engine
  let slug := stripUnderscores
    ((slugOf identity).take (max (min 24 (limit - (suffixOf token).length - 5)) 1))
  if slug = [] then "jit".toList else slug

theorem maxIdentifierLength_ge (engine : String) : 32 ≤ maxIdentifierLength engine := by
  have hall : ∀ entry ∈ maxIdent, 32 ≤ entry.2 := by decide
  unfold maxIdentifierLength
  cases hlookup : maxIdent.lookup engine with
  | none => exact le_rfl
  | some limit =>
    obtain ⟨before, after, hsplit, -⟩ := List.lookup_eq_some_iff.mp hlookup
    refine hall (engine, limit) ?_
    rw [hsplit]
    exact List.mem_append_right before List.mem_cons_self

/-! ### The characters of the parts -/

/-- `[A-Za-z0-9_]`. -/
def isWord (c : Char) : Bool := c.isAlphanum || c = '_'

theorem alphanum_ascii {c : Char} (h : c.isAlphanum = true) : c.toNat < 128 := by
  delta Char.isAlphanum Char.isAlpha Char.isUpper Char.isLower Char.isDigit at h
  simp only [Bool.or_eq_true, Bool.and_eq_true, decide_eq_true_eq, ge_iff_le, UInt32.le_iff_toNat_le] at h
  have hcode : c.toNat = c.val.toNat := rfl
  have hA : (65 : UInt32).toNat = 65 := rfl
  simp at h
  omega

theorem toLower_alphanum {c : Char} (h : c.isAlphanum = true) : c.toLower.isAlphanum = true := by
  have hsmall : ∀ n < 128, (Char.ofNat n).isAlphanum = true → (Char.ofNat n).toLower.isAlphanum = true := by
    decide
  have hc := hsmall c.toNat (alphanum_ascii h)
  rw [Char.ofNat_toNat] at hc
  exact hc h

theorem kept_alphanum (token : String) :
    ∀ c ∈ (token.toList.filter Char.isAlphanum).take 12, c.isAlphanum = true :=
  fun _ hc => (List.mem_filter.mp (List.mem_of_mem_take hc)).2

theorem suffixOf_eq (token : String) : suffixOf token =
    if ((token.toList.filter Char.isAlphanum).take 12).map Char.toLower = [] then ['x']
    else ((token.toList.filter Char.isAlphanum).take 12).map Char.toLower := by
  have hlower := lowerChars_ascii (fun c hc => alphanum_ascii (kept_alphanum token c hc)) []
  simp only [suffixOf, lower, String.toList_ofList, hlower]

theorem suffixOf_length (token : String) :
    1 ≤ (suffixOf token).length ∧ (suffixOf token).length ≤ 12 := by
  have htake := List.length_take_le 12 (token.toList.filter Char.isAlphanum)
  rw [suffixOf_eq]
  split
  next => exact ⟨by decide, by decide⟩
  next hne =>
    refine ⟨List.length_pos_of_ne_nil hne, ?_⟩
    rw [List.length_map]
    exact htake

theorem suffixOf_alphanum (token : String) : ∀ c ∈ suffixOf token, c.isAlphanum = true := by
  rw [suffixOf_eq]
  split
  · exact List.all_eq_true.mp (by decide)
  · intro c hc
    obtain ⟨d, hd, rfl⟩ := List.mem_map.mp hc
    exact toLower_alphanum (kept_alphanum token d hd)

theorem stripUnderscores_subset (cs : List Char) : stripUnderscores cs ⊆ cs := by
  intro c hc
  have hdrop := List.mem_reverse.mp hc
  have hmem := (List.dropWhile_suffix _).subset hdrop
  exact (List.dropWhile_suffix _).subset (List.mem_reverse.mp hmem)

theorem stripUnderscores_length (cs : List Char) : (stripUnderscores cs).length ≤ cs.length := by
  have houter := (List.dropWhile_suffix (l := (cs.dropWhile (· = '_')).reverse) (· = '_')).length_le
  have hinner := (List.dropWhile_suffix (l := cs) (· = '_')).length_le
  unfold stripUnderscores
  rw [List.length_reverse]
  rw [List.length_reverse] at houter
  omega

theorem squeeze_subset (cs : List Char) : squeeze cs ⊆ cs := by
  induction cs with
  | nil => exact List.Subset.refl _
  | cons c cs ih =>
    unfold squeeze
    split
    · exact List.Subset.trans ih (List.subset_cons_self c cs)
    · exact List.cons_subset_cons c ih

theorem slugOf_word (text : String) : ∀ c ∈ slugOf text, isWord c = true := by
  intro c hc
  have hmem := stripUnderscores_subset _ (squeeze_subset _ hc)
  obtain ⟨d, -, rfl⟩ := List.mem_map.mp hmem
  unfold isWord
  split
  next h => rw [h]; rfl
  next => rfl

theorem readablePart_word (identity token engine : String) :
    ∀ c ∈ readablePart identity token engine, isWord c = true := by
  simp only [readablePart]
  split
  · exact List.all_eq_true.mp (by decide)
  · intro c hc
    exact slugOf_word identity c (List.mem_of_mem_take (stripUnderscores_subset _ hc))

/-- The suffix and the marks are left out of the limit before the readable part is cut. -/
theorem readablePart_length (identity token engine : String) :
    (readablePart identity token engine).length + (suffixOf token).length + 5 ≤
      min 41 (maxIdentifierLength engine) := by
  have hlimit := maxIdentifierLength_ge engine
  have hsuffix := suffixOf_length token
  simp only [readablePart]
  split
  · have hjit : ("jit".toList).length = 3 := by decide
    rw [hjit]
    omega
  · have hstrip := stripUnderscores_length ((slugOf identity).take
      (max (min 24 (maxIdentifierLength engine - (suffixOf token).length - 5)) 1))
    have htake := List.length_take_le
      (max (min 24 (maxIdentifierLength engine - (suffixOf token).length - 5)) 1) (slugOf identity)
    omega

/-! ### The name -/

/-- Nothing is cut from the assembled name, and it needs no letter in front. -/
theorem ephemeralUsername_toList (identity token engine : String) :
    (ephemeralUsername identity token engine).toList =
      "jit_".toList ++ readablePart identity token engine ++ '_' :: suffixOf token := by
  have hlen := readablePart_length identity token engine
  have hjit : ("jit_".toList).length = 4 := by decide
  have hname : ("jit_".toList ++ readablePart identity token engine ++ '_' :: suffixOf token).length ≤
      maxIdentifierLength engine := by
    rw [List.length_append, List.length_append, hjit, List.length_cons]
    omega
  have halpha : ((("jit_".toList ++ readablePart identity token engine ++
      '_' :: suffixOf token)).headD '_').isAlpha = true := rfl
  show (String.ofList (List.take _ (if (("jit_".toList ++ readablePart identity token engine ++
    '_' :: suffixOf token).headD '_').isAlpha = true then _ else _))).toList = _
  rw [if_pos halpha, String.toList_ofList]
  exact List.take_of_length_le hname

theorem ephemeralUsername_word (identity token engine : String) :
    ∀ c ∈ (ephemeralUsername identity token engine).toList, isWord c = true := by
  rw [ephemeralUsername_toList]
  intro c hc
  rcases List.mem_append.mp hc with hfront | hback
  · rcases List.mem_append.mp hfront with hmark | hslug
    · exact List.all_eq_true.mp (by decide : "jit_".toList.all isWord = true) c hmark
    · exact readablePart_word identity token engine c hslug
  · rcases List.mem_cons.mp hback with rfl | hsuffix
    · rfl
    · unfold isWord
      rw [suffixOf_alphanum token c hsuffix]
      rfl

theorem ephemeralUsername_length (identity token engine : String) :
    (ephemeralUsername identity token engine).toList.length ≤
      min 41 (maxIdentifierLength engine) := by
  have hlen := readablePart_length identity token engine
  have hjit : ("jit_".toList).length = 4 := by decide
  rw [ephemeralUsername_toList, List.length_append, List.length_append, hjit, List.length_cons]
  omega

theorem isIdent_ephemeralUsername (identity token engine : String) :
    isIdent (ephemeralUsername identity token engine) = true := by
  have hword := ephemeralUsername_word identity token engine
  have hlen := ephemeralUsername_length identity token engine
  have hend : beforeEnd (ephemeralUsername identity token engine).toList =
      (ephemeralUsername identity token engine).toList := by
    unfold beforeEnd
    split
    next hlast => exact absurd (hword _ (List.mem_of_getLast? hlast)) (by decide)
    next => rfl
  unfold isIdent
  rw [hend]
  have hcons : (ephemeralUsername identity token engine).toList =
      'j' :: ("it_".toList ++ readablePart identity token engine ++ '_' :: suffixOf token) :=
    ephemeralUsername_toList identity token engine
  rw [hcons] at hword hlen ⊢
  rw [List.length_cons] at hlen
  simp only [Bool.and_eq_true, List.all_eq_true, decide_eq_true_eq]
  exact ⟨⟨rfl, fun c hc => hword c (List.mem_cons_of_mem _ hc)⟩, by omega⟩

/-- Two names are the same exactly when both parts are. -/
theorem ephemeralUsername_eq_iff (identity identity' token token' engine engine' : String) :
    ephemeralUsername identity token engine = ephemeralUsername identity' token' engine' ↔
      readablePart identity token engine = readablePart identity' token' engine' ∧
        suffixOf token = suffixOf token' := by
  have hmark (t : String) : '_' ∉ suffixOf t := fun h => absurd (suffixOf_alphanum t _ h) (by decide)
  constructor
  · intro h
    have hlist := congrArg String.toList h
    rw [ephemeralUsername_toList, ephemeralUsername_toList] at hlist
    obtain ⟨hfront, hsuffix⟩ := Python.append_cons_inj_right (hmark token) (hmark token') hlist
    exact ⟨List.append_cancel_left hfront, hsuffix⟩
  · rintro ⟨hreadable, hsuffix⟩
    apply String.toList_injective
    rw [ephemeralUsername_toList, ephemeralUsername_toList, hreadable, hsuffix]

structure Grant.Valid (g : Grant) : Prop where
  ident : isIdent g.username = true
  mark : "jit_".toList <+: g.username.toList
  limit : g.username.toList.length ≤ maxIdentifierLength g.engine

theorem Grant.valid (g : Grant) : g.Valid := by
  refine ⟨isIdent_ephemeralUsername _ _ _, ?_, ?_⟩
  · show "jit_".toList <+: (ephemeralUsername g.identity g.requestId g.engine).toList
    rw [ephemeralUsername_toList, List.append_assoc]
    exact List.prefix_append _ _
  · have hlen := ephemeralUsername_length g.identity g.requestId g.engine
    show (ephemeralUsername g.identity g.requestId g.engine).toList.length ≤ _
    omega

/-- Valid for every grant, and distinct for two request ids exactly when the first twelve letters
and digits of the ids differ or the readable parts do. -/
theorem usernames_valid_distinct_iff (g g' : Grant) :
    (g.Valid ∧ g'.Valid ∧ (g.requestId ≠ g'.requestId → g.username ≠ g'.username)) ↔
      (g.requestId ≠ g'.requestId → suffixOf g.requestId ≠ suffixOf g'.requestId ∨
        readablePart g.identity g.requestId g.engine ≠
          readablePart g'.identity g'.requestId g'.engine) := by
  have heq := ephemeralUsername_eq_iff g.identity g'.identity g.requestId g'.requestId g.engine
    g'.engine
  constructor
  · rintro ⟨-, -, hdistinct⟩ hids
    by_contra hsame
    rw [not_or, not_not, not_not] at hsame
    exact hdistinct hids (heq.mpr ⟨hsame.2, hsame.1⟩)
  · intro hparts
    refine ⟨g.valid, g'.valid, fun hids hname => ?_⟩
    obtain ⟨hreadable, hsuffix⟩ := heq.mp hname
    obtain hne | hne := hparts hids
    · exact hne hsuffix
    · exact hne hreadable

/-- Of the header of AWS the name keeps the time down to sixteen seconds and nothing random. -/
theorem suffixOf_trace {epoch : String} (hepoch : ∀ c ∈ epoch.toList, c.isAlphanum = true)
    (hlen : epoch.toList.length = 8) (random : String) :
    suffixOf ("Root=1-" ++ epoch ++ "-" ++ random) =
      "root1".toList ++ (epoch.toList.take 7).map Char.toLower := by
  have hkept : (("Root=1-" ++ epoch ++ "-" ++ random).toList.filter Char.isAlphanum).take 12 =
      "Root1".toList ++ epoch.toList.take 7 := by
    have hroot : ("Root=1-".toList).filter Char.isAlphanum = "Root1".toList := by decide
    have hfive : ("Root1".toList).length = 5 := by decide
    rw [String.toList_append, String.toList_append, String.toList_append, List.filter_append,
      List.filter_append, List.filter_append, hroot, List.filter_eq_self.mpr hepoch,
      List.append_assoc, List.append_assoc, List.take_append, hfive,
      List.take_of_length_le (by omega), List.take_append_of_le_length (by omega)]
  have hne : ("Root1".toList ++ epoch.toList.take 7).map Char.toLower ≠ [] := by
    rw [List.map_append]
    exact List.append_ne_nil_of_left_ne_nil (by decide) _
  rw [suffixOf_eq, hkept, if_neg hne, List.map_append]
  rfl

/-- Two requests of one person within sixteen seconds. -/
def traced (id : String) : Grant :=
  ⟨"ada@example.com", [("x-amzn-trace-id", id)], "", "postgres"⟩

theorem same_epoch_same_name :
    ¬((traced "Root=1-67891233-a1b2c3d4e5f60718293a4b5c").Valid ∧
      (traced "Root=1-67891239-0f1e2d3c4b5a69788796a5b4").Valid ∧
      ((traced "Root=1-67891233-a1b2c3d4e5f60718293a4b5c").requestId ≠
          (traced "Root=1-67891239-0f1e2d3c4b5a69788796a5b4").requestId →
        (traced "Root=1-67891233-a1b2c3d4e5f60718293a4b5c").username ≠
          (traced "Root=1-67891239-0f1e2d3c4b5a69788796a5b4").username)) := by
  rintro ⟨-, -, hdistinct⟩
  exact absurd hdistinct (by decide +kernel)

end Databases
