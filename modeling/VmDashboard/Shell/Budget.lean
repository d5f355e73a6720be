import VmDashboard.Shell.Words

/-!
# What a line can spend on quotes

A quote or a backslash outside quotes is a character that reaches no word. A line that has to become
all its words and has no character to spare for more quoting has no piece that quotes.
-/

namespace Shell
open Machine (Transducer)
open Python (apostrophe quotation backslash)

/-- The characters of the words and the ends of the words. -/
def weight (tokens : List Token) : ℕ := tokens.countP fun token => token ≠ .pipe

@[simp] theorem weight_nil : weight [] = 0 := rfl

@[simp] theorem weight_append (a b : List Token) : weight (a ++ b) = weight a + weight b :=
  List.countP_append

@[simp] theorem weight_char (c : Char) (tokens : List Token) :
    weight (.char c :: tokens) = weight tokens + 1 :=
  List.countP_cons_of_pos (decide_eq_true nofun)

@[simp] theorem weight_wordEnd (tokens : List Token) :
    weight (.wordEnd :: tokens) = weight tokens + 1 :=
  List.countP_cons_of_pos (decide_eq_true nofun)

theorem weight_map_char (cs : List Char) : weight (cs.map .char) = cs.length := by
  induction cs with
  | nil => rfl
  | cons c cs ih => rw [List.map_cons, weight_char, ih, List.length_cons]

/-- The modes one step leads between, with what it yields at most. -/
def moves : List (Mode × Mode × ℕ) :=
  [(.blank, .blank, 0), (.blank, .escaped false, 0), (.blank, .single, 0), (.blank, .double, 0),
    (.blank, .word, 1), (.word, .blank, 1), (.word, .escaped true, 0), (.word, .single, 0),
    (.word, .double, 0), (.word, .word, 1), (.escaped true, .word, 1), (.escaped false, .word, 1),
    (.escaped false, .blank, 0), (.single, .word, 0), (.single, .single, 1), (.double, .word, 0),
    (.double, .doubleEscaped, 0), (.double, .double, 1), (.doubleEscaped, .double, 2)]

theorem unquoted_eq_some {c : Char} {m : Mode} {out : List Token} (h : unquoted c = some (m, out)) :
    (m = .single ∧ out = []) ∨ (m = .double ∧ out = []) ∨
      (m = .word ∧ out = [.char c] ∧ c ≠ apostrophe ∧ c ≠ quotation ∧ isSpecial c = false) := by
  unfold unquoted at h
  split at h
  · obtain ⟨rfl, rfl⟩ := Prod.mk.inj (Option.some.inj h)
    exact .inl ⟨rfl, rfl⟩
  · split at h
    · obtain ⟨rfl, rfl⟩ := Prod.mk.inj (Option.some.inj h)
      exact .inr (.inl ⟨rfl, rfl⟩)
    · split at h
      · cases h
      next hsingle hdouble hspecial =>
        obtain ⟨rfl, rfl⟩ := Prod.mk.inj (Option.some.inj h)
        exact .inr (.inr ⟨rfl, rfl, hsingle, hdouble, Bool.eq_false_iff.mpr hspecial⟩)

theorem step_moves {m m' : Mode} {c : Char} {out : List Token} (h : step m c = some (m', out)) :
    ∃ k, (m, m', k) ∈ moves ∧ weight out ≤ k := by
  cases m with
  | blank =>
    simp only [step] at h
    split at h
    · obtain ⟨rfl, rfl⟩ := Prod.mk.inj (Option.some.inj h)
      exact ⟨0, by decide, by decide⟩
    · split at h
      · obtain ⟨rfl, rfl⟩ := Prod.mk.inj (Option.some.inj h)
        exact ⟨0, by decide, by decide⟩
      · split at h
        · obtain ⟨rfl, rfl⟩ := Prod.mk.inj (Option.some.inj h)
          exact ⟨0, by decide, by decide⟩
        · split at h
          · cases h
          · rcases unquoted_eq_some h with ⟨rfl, rfl⟩ | ⟨rfl, rfl⟩ | ⟨rfl, rfl, -⟩
            · exact ⟨0, by decide, by decide⟩
            · exact ⟨0, by decide, by decide⟩
            · exact ⟨1, by decide, le_rfl⟩
  | word =>
    simp only [step] at h
    split at h
    · obtain ⟨rfl, rfl⟩ := Prod.mk.inj (Option.some.inj h)
      exact ⟨1, by decide, by decide⟩
    · split at h
      · obtain ⟨rfl, rfl⟩ := Prod.mk.inj (Option.some.inj h)
        exact ⟨1, by decide, by decide⟩
      · split at h
        · obtain ⟨rfl, rfl⟩ := Prod.mk.inj (Option.some.inj h)
          exact ⟨0, by decide, by decide⟩
        · rcases unquoted_eq_some h with ⟨rfl, rfl⟩ | ⟨rfl, rfl⟩ | ⟨rfl, rfl, -⟩
          · exact ⟨0, by decide, by decide⟩
          · exact ⟨0, by decide, by decide⟩
          · exact ⟨1, by decide, le_rfl⟩
  | escaped begun =>
    simp only [step] at h
    split at h
    · obtain ⟨rfl, rfl⟩ := Prod.mk.inj (Option.some.inj h)
      cases begun
      · exact ⟨0, by decide, by decide⟩
      · exact ⟨1, by decide, by decide⟩
    · obtain ⟨rfl, rfl⟩ := Prod.mk.inj (Option.some.inj h)
      cases begun
      · exact ⟨1, by decide, le_rfl⟩
      · exact ⟨1, by decide, le_rfl⟩
  | single =>
    simp only [step] at h
    split at h
    · obtain ⟨rfl, rfl⟩ := Prod.mk.inj (Option.some.inj h)
      exact ⟨0, by decide, by decide⟩
    · obtain ⟨rfl, rfl⟩ := Prod.mk.inj (Option.some.inj h)
      exact ⟨1, by decide, le_rfl⟩
  | double =>
    simp only [step] at h
    split at h
    · obtain ⟨rfl, rfl⟩ := Prod.mk.inj (Option.some.inj h)
      exact ⟨0, by decide, by decide⟩
    · split at h
      · obtain ⟨rfl, rfl⟩ := Prod.mk.inj (Option.some.inj h)
        exact ⟨0, by decide, by decide⟩
      · split at h
        · cases h
        · obtain ⟨rfl, rfl⟩ := Prod.mk.inj (Option.some.inj h)
          exact ⟨1, by decide, le_rfl⟩
  | doubleEscaped =>
    simp only [step] at h
    split at h
    · obtain ⟨rfl, rfl⟩ := Prod.mk.inj (Option.some.inj h)
      exact ⟨2, by decide, Nat.le_succ 1⟩
    · split at h
      · obtain ⟨rfl, rfl⟩ := Prod.mk.inj (Option.some.inj h)
        exact ⟨2, by decide, by decide⟩
      · obtain ⟨rfl, rfl⟩ := Prod.mk.inj (Option.some.inj h)
        exact ⟨2, by decide, le_rfl⟩

/-- `f m` characters at least reach no word when a text with this ending is read from `m`. -/
theorem weight_read_le {f : Mode → ℕ} (hmoves : ∀ e ∈ moves, e.2.2 + f e.1 ≤ 1 + f e.2.1)
    {P : List Token → Prop} (hP : ∀ a b, P (a ++ b) → P b) {ending : List Char} {k : ℕ}
    (hending : ∀ m out, splitter.read m ending = some out → P out → weight out + f m ≤ k) {m : Mode}
    {text : List Char} {out : List Token} (h : splitter.read m (text ++ ending) = some out) (hout : P out) :
    weight out + f m ≤ text.length + k := by
  induction text generalizing m out with
  | nil =>
    have hle := hending m out h hout
    rw [List.length_nil]
    omega
  | cons c text ih =>
    obtain ⟨m', first, rest, hstep, hread, rfl⟩ := Transducer.read_cons_eq_some h
    obtain ⟨spent, hmove, hfirst⟩ := step_moves hstep
    have hle := hmoves _ hmove
    have hrest := ih hread (hP first rest hout)
    simp only at hle
    rw [weight_append, List.length_cons]
    omega

/-! ### Pieces that cannot quote -/

/-- Whatever is put in front of `rest`, no mode lets it spend characters and still leave the rest to
become what is expected of it. -/
def Costly (rest : List Char) (expected : List Token) : Prop :=
  ∀ m text front, m ≠ .doubleEscaped → splitter.read m (text ++ rest) = some (front ++ expected) →
    weight front ≤ text.length

def spareCost (m : Mode) : ℕ := if m = .doubleEscaped then 0 else 1

theorem weight_run_le {m m' : Mode} {text : List Char} {out : List Token}
    (h : splitter.run m text = some (m', out)) :
    weight out + spareCost m ≤ text.length + spareCost m' := by
  induction text generalizing m out with
  | nil =>
    obtain ⟨rfl, rfl⟩ := Prod.mk.inj (Option.some.inj h)
    rw [weight_nil, List.length_nil]
  | cons c text ih =>
    obtain ⟨middle, first, rest, hstep, hrun, rfl⟩ := Transducer.run_cons_eq_some h
    obtain ⟨spent, hmove, hfirst⟩ := step_moves hstep
    have hmoves : ∀ e ∈ moves, e.2.2 + spareCost e.1 ≤ 1 + spareCost e.2.1 := by decide
    have hle := hmoves _ hmove
    have hrest := ih hrun
    simp only at hle
    rw [weight_append, List.length_cons]
    omega

/-- A rest that closes no quote: it is only read after one that left none open. -/
theorem costly_of_unquoted {rest : List Char} {expected : List Token}
    (hword : splitter.read .word rest = some (.wordEnd :: expected))
    (hblank : splitter.read .blank rest = some expected)
    (hescaped : ∀ begun, splitter.read (.escaped begun) rest = some (.char ' ' :: expected))
    (hopen : splitter.read .single rest = none ∧ splitter.read .double rest = none ∧ splitter.read .doubleEscaped rest = none) :
    Costly rest (.wordEnd :: expected) := by
  intro m text front hm hread
  obtain ⟨m', out, tail, hrun, htail, heq⟩ := Transducer.read_append_eq_some hread
  have hle := weight_run_le hrun
  have hm1 : spareCost m = 1 := if_neg hm
  cases m' with
  | word =>
    obtain rfl := Option.some.inj (hword.symm.trans htail)
    obtain rfl := List.append_cancel_right heq
    have hone : spareCost .word = 1 := rfl
    omega
  | blank =>
    obtain rfl := Option.some.inj (hblank.symm.trans htail)
    rw [List.append_cons, List.append_cancel_right_eq] at heq
    have hone : spareCost .blank = 1 := rfl
    rw [← heq, weight_append] at hle
    omega
  | escaped begun =>
    obtain rfl := Option.some.inj ((hescaped begun).symm.trans htail)
    rw [List.append_cons front, List.append_cons out, List.append_cancel_right_eq] at heq
    have hlast := (List.append_inj' heq rfl).2
    cases (List.cons.inj hlast).1
  | single => cases hopen.1.symm.trans htail
  | double => cases hopen.2.1.symm.trans htail
  | doubleEscaped => cases hopen.2.2.symm.trans htail

/-- The last word does not end in a double quote. -/
def Unquoted (tokens : List Token) : Prop := ¬[.char quotation, .wordEnd] <:+ tokens

theorem Unquoted.of_append {a b : List Token} (h : Unquoted (a ++ b)) : Unquoted b :=
  fun hb => h (hb.trans (List.suffix_append a b))

def closingCost : Mode → ℕ
  | .single => 3
  | .double => 1
  | .doubleEscaped => 0
  | _ => 2

theorem read_closing {m : Mode} {out : List Token} (h : splitter.read m [quotation] = some out)
    (hout : Unquoted out) : weight out + closingCost m ≤ 2 := by
  cases m with
  | escaped begun =>
    cases begun
    · obtain rfl := Option.some.inj h
      exact absurd (List.suffix_refl _) hout
    · obtain rfl := Option.some.inj h
      exact absurd (List.suffix_refl _) hout
  | double =>
    obtain rfl := Option.some.inj h
    decide
  | _ => cases h

/-- A text that ends in a closing quote spends that and the opening one. -/
theorem closingCost_le {m : Mode} {text : List Char} {out : List Token}
    (h : splitter.read m (text ++ [quotation]) = some out) (hout : Unquoted out) :
    weight out + closingCost m ≤ text.length + 2 :=
  weight_read_le (by decide) (fun _ _ h => Unquoted.of_append h)
    (fun _ _ hread hlast => read_closing hread hlast) h hout

/-- A second word after an open quote spends another two. -/
theorem reopening_le {text : List Char} : ∀ {m : Mode} {out : List Token},
    splitter.read m (text ++ [quotation]) = some out → Unquoted out → 2 ≤ out.count .wordEnd →
    (m = .double → weight out + 3 ≤ text.length + 2) ∧
      (m = .doubleEscaped → weight out + 2 ≤ text.length + 2) := by
  induction text with
  | nil =>
    intro m out h hout hcount
    constructor
    · rintro rfl
      obtain rfl := Option.some.inj h
      exact absurd hcount (by decide)
    · rintro rfl
      cases h
  | cons c text ih =>
    intro m out h hout hcount
    obtain ⟨m', first, rest, hstep, hread, rfl⟩ := Transducer.read_cons_eq_some h
    have hrest := hout.of_append
    rw [List.count_append] at hcount
    constructor
    · rintro rfl
      simp only [splitter, step] at hstep
      split at hstep
      · obtain ⟨rfl, rfl⟩ := Prod.mk.inj (Option.some.inj hstep)
        have hle : weight rest + 2 ≤ text.length + 2 := closingCost_le hread hrest
        rw [List.nil_append, List.length_cons]
        omega
      · split at hstep
        · obtain ⟨rfl, rfl⟩ := Prod.mk.inj (Option.some.inj hstep)
          have hle := (ih hread hrest (by simpa using hcount)).2 rfl
          rw [List.nil_append, List.length_cons]
          omega
        · split at hstep
          · cases hstep
          · obtain ⟨rfl, rfl⟩ := Prod.mk.inj (Option.some.inj hstep)
            have hle := (ih hread hrest (by simpa using hcount)).1 rfl
            rw [List.singleton_append, weight_char, List.length_cons]
            omega
    · rintro rfl
      simp only [splitter, step] at hstep
      split at hstep
      · obtain ⟨rfl, rfl⟩ := Prod.mk.inj (Option.some.inj hstep)
        have hle := (ih hread hrest (by simpa using hcount)).1 rfl
        rw [List.singleton_append, weight_char, List.length_cons]
        omega
      · split at hstep
        · obtain ⟨rfl, rfl⟩ := Prod.mk.inj (Option.some.inj hstep)
          have hle := (ih hread hrest (by simpa using hcount)).1 rfl
          rw [List.nil_append, List.length_cons]
          omega
        · obtain ⟨rfl, rfl⟩ := Prod.mk.inj (Option.some.inj hstep)
          have hle := (ih hread hrest (by simpa using hcount)).1 rfl
          rw [List.cons_append, List.singleton_append, weight_char, weight_char, List.length_cons]
          omega

theorem costly_of_closing {rest : List Char} {expected : List Token}
    (hweight : weight expected = rest.length) (hwords : 2 ≤ expected.count .wordEnd)
    (hlast : ∀ front, Unquoted (front ++ expected)) : Costly (rest ++ [quotation]) expected := by
  intro m text front hm hread
  rw [← List.append_assoc] at hread
  have hclosing := closingCost_le hread (hlast front)
  have hreopen := reopening_le hread (hlast front) (by rw [List.count_append]; omega)
  rw [weight_append, List.length_append] at hclosing hreopen
  cases m with
  | double =>
    have hle := hreopen.1 rfl
    omega
  | doubleEscaped => exact absurd rfl hm
  | _ =>
    simp only [closingCost] at hclosing
    omega

theorem Costly.not_read {rest : List Char} {expected : List Token} (h : Costly rest expected)
    {m : Mode} (hm : m ≠ .doubleEscaped) {c : Char} {piece : List Char} :
    splitter.read m (piece ++ rest) ≠ some (.char c :: (piece.map .char ++ expected)) := by
  intro hread
  have hle := h m piece (.char c :: piece.map .char) hm hread
  rw [weight_char, weight_map_char] at hle
  omega

/-- One character of a piece that becomes itself, where nothing can be spent on quotes. -/
theorem step_plain {m m' : Mode} {c : Char} {out : List Token} {piece rest : List Char}
    {expected : List Token} (hrest : Costly rest expected) (hm : m = .word ∨ m = .blank)
    (hstep : step m c = some (m', out)) (hread : splitter.read m' (piece ++ rest) = some tail)
    (htail : .char c :: (piece.map .char ++ expected) = out ++ tail) :
    (m = .blank → c ≠ '#' ∧ c ≠ '~') ∧ isPlain c = true ∧ m' = .word ∧
      tail = piece.map .char ++ expected := by
  have hnot {m' : Mode} (hread : splitter.read m' (piece ++ rest) = some tail) (hm' : m' ≠ .doubleEscaped)
      (hout : out = []) : False := by
    rw [hout, List.nil_append] at htail
    exact hrest.not_read hm' (htail ▸ hread)
  have hplain (hblank : isBlank c = false) (hpipe : c ≠ '|') (hback : c ≠ backslash)
      (h : unquoted c = some (m', out)) : isPlain c = true ∧ m' = .word ∧
        tail = piece.map .char ++ expected := by
    rcases unquoted_eq_some h with ⟨rfl, hout⟩ | ⟨rfl, hout⟩ | ⟨rfl, rfl, hsingle, hdouble, hspecial⟩
    · exact (hnot hread (by simp) hout).elim
    · exact (hnot hread (by simp) hout).elim
    · refine ⟨?_, rfl, (List.cons.inj htail).2.symm⟩
      simp [isPlain, hblank, hpipe, hback, hsingle, hdouble, hspecial]
  rcases hm with rfl | rfl
  · refine ⟨by simp, ?_⟩
    simp only [step] at hstep
    split at hstep
    · obtain ⟨rfl, rfl⟩ := Prod.mk.inj (Option.some.inj hstep)
      cases htail
    · split at hstep
      · obtain ⟨rfl, rfl⟩ := Prod.mk.inj (Option.some.inj hstep)
        cases htail
      · split at hstep
        · obtain ⟨rfl, rfl⟩ := Prod.mk.inj (Option.some.inj hstep)
          exact (hnot hread (by simp) rfl).elim
        next hblank hpipe hback => exact hplain (Bool.eq_false_iff.mpr hblank) hpipe hback hstep
  · simp only [step] at hstep
    split at hstep
    · obtain ⟨rfl, rfl⟩ := Prod.mk.inj (Option.some.inj hstep)
      exact (hnot hread (by simp) rfl).elim
    · split at hstep
      · obtain ⟨rfl, rfl⟩ := Prod.mk.inj (Option.some.inj hstep)
        cases htail
      · split at hstep
        · obtain ⟨rfl, rfl⟩ := Prod.mk.inj (Option.some.inj hstep)
          exact (hnot hread (by simp) rfl).elim
        · split at hstep
          · cases hstep
          next hblank hpipe hback hmark =>
            rw [not_or] at hmark
            exact ⟨fun _ => hmark, hplain (Bool.eq_false_iff.mpr hblank) hpipe hback hstep⟩

theorem plain_of_read {rest : List Char} {expected : List Token} (hrest : Costly rest expected)
    {piece : List Char} (h : splitter.read .word (piece ++ rest) = some (piece.map .char ++ expected)) :
    piece.all isPlain = true := by
  induction piece with
  | nil => rfl
  | cons c piece ih =>
    obtain ⟨m', out, tail, hstep, hread, htail⟩ := Transducer.read_cons_eq_some h
    obtain ⟨-, hc, rfl, rfl⟩ := step_plain hrest (.inl rfl) hstep hread htail
    rw [List.all_cons, hc, ih hread]
    rfl

theorem plainWord_of_read {rest : List Char} {expected : List Token} (hrest : Costly rest expected)
    {piece : List Char} (hne : piece ≠ [])
    (h : splitter.read .blank (piece ++ rest) = some (piece.map .char ++ expected)) :
    isPlainWord piece = true := by
  cases piece with
  | nil => exact absurd rfl hne
  | cons c piece =>
    obtain ⟨m', out, tail, hstep, hread, htail⟩ := Transducer.read_cons_eq_some h
    obtain ⟨hmark, hc, rfl, rfl⟩ := step_plain hrest (.inr rfl) hstep hread htail
    obtain ⟨hhash, htilde⟩ := hmark rfl
    simp [isPlainWord, hhash, htilde, hc, plain_of_read hrest hread]

/-! ### Words without quotes before one in double quotes -/

def spaced (words : List (List Char)) : List Char := words.flatMap fun word => ' ' :: word

theorem spaced_cons (word : List Char) (words : List (List Char)) :
    spaced (word :: words) = ' ' :: (word ++ spaced words) := rfl

theorem length_spaced (words : List (List Char)) :
    (spaced words).length = weight (commandTokens words) := by
  induction words with
  | nil => rfl
  | cons word words ih =>
    show (' ' :: (word ++ spaced words)).length = weight (wordTokens word ++ commandTokens words)
    have hword : weight (wordTokens word) = word.length + 1 := by
      rw [wordTokens, weight_append, weight_map_char]
      rfl
    rw [List.length_cons, List.length_append, weight_append, ih, hword]
    omega

theorem commandTokens_append (words words' : List (List Char)) :
    commandTokens (words ++ words') = commandTokens words ++ commandTokens words' :=
  List.flatMap_append

theorem unquoted_wordTokens {word : List Char} (hne : word ≠ []) (h : quotation ∉ word)
    (front : List Token) : Unquoted (front ++ wordTokens word) := by
  obtain ⟨start, c, rfl⟩ := (List.eq_nil_or_concat' word).resolve_left hne
  intro hsuffix
  have hsplit : front ++ wordTokens (start ++ [c]) =
      (front ++ start.map Token.char) ++ [.char c, .wordEnd] := by
    rw [wordTokens, List.map_append, List.append_assoc, List.append_assoc]
    rfl
  rw [hsplit] at hsuffix
  have hlast := List.suffix_of_suffix_length_le hsuffix (List.suffix_append _ _) le_rfl
  have heq := hlast.eq_of_length rfl
  have hc : quotation = c := Token.char.inj (List.cons.inj heq).1
  exact h (hc ▸ List.mem_append_right start List.mem_cons_self)

/-- Each of the words is read as written exactly when all of them are plain. -/
theorem read_spaced_iff {words : List (List Char)} (hne : ∀ word ∈ words, word ≠ [])
    {quoted : List Char} (hempty : quoted ≠ []) (hquoted : quoted.all isDoublePlain = true) :
    splitter.read .word (spaced words ++ ' ' :: quotation :: (quoted ++ [quotation])) =
        some (.wordEnd :: commandTokens (words ++ [quoted])) ↔
      ∀ word ∈ words, isPlainWord word = true := by
  have hmark : quotation ∉ quoted := by
    intro hmem
    have hplain := List.all_eq_true.mp hquoted _ hmem
    exact absurd hplain (by decide)
  have hstep : step .word ' ' = some (.blank, [.wordEnd]) := by decide
  induction words with
  | nil =>
    have hread : splitter.read .blank (quotation :: (quoted ++ [quotation])) =
        some (commandTokens [quoted]) := by
      have happend := Transducer.read_append (run_doubleQuoted hquoted) []
      rw [List.append_nil] at happend
      rw [happend]
      show some (quoted.map Token.char ++ [.wordEnd]) = some (wordTokens quoted ++ [])
      rw [List.append_nil]
      rfl
    show splitter.read .word (' ' :: quotation :: (quoted ++ [quotation])) = _ ↔ _
    rw [Transducer.read_cons hstep, hread]
    exact ⟨fun _ => nofun, fun _ => rfl⟩
  | cons word words ih =>
    have hne' : ∀ word ∈ words, word ≠ [] := fun word h => hne word (List.mem_cons_of_mem _ h)
    -- What follows the word, and what it has to become.
    have hcostly : Costly (spaced words ++ ' ' :: quotation :: (quoted ++ [quotation]))
        (.wordEnd :: commandTokens (words ++ [quoted])) := by
      have hsplit : spaced words ++ ' ' :: quotation :: (quoted ++ [quotation]) =
          (spaced words ++ ' ' :: quotation :: quoted) ++ [quotation] := by
        rw [List.append_assoc]
        rfl
      have hexpected : Token.wordEnd :: commandTokens (words ++ [quoted]) =
          (Token.wordEnd :: commandTokens words) ++ wordTokens quoted := by
        rw [commandTokens_append]
        show _ :: (commandTokens words ++ (wordTokens quoted ++ [])) = _
        rw [List.append_nil]
        rfl
      have hword : weight (wordTokens quoted) = quoted.length + 1 := by
        rw [wordTokens, weight_append, weight_map_char]
        rfl
      rw [hsplit, hexpected]
      refine costly_of_closing ?_ ?_ fun front => ?_
      · rw [weight_append, weight_wordEnd, hword, List.length_append, length_spaced]
        simp only [List.length_cons]
        omega
      · have hlast : 1 ≤ (wordTokens quoted).count .wordEnd :=
          List.count_pos_iff.mpr (List.mem_append_right _ List.mem_cons_self)
        rw [List.count_append, List.count_cons_self]
        omega
      · rw [← List.append_assoc]
        exact unquoted_wordTokens hempty hmark _
    have hstart : splitter.read .word (spaced (word :: words) ++ ' ' :: quotation :: (quoted ++ [quotation])) =
          some (.wordEnd :: commandTokens (word :: words ++ [quoted])) ↔
        splitter.read .blank (word ++ (spaced words ++ ' ' :: quotation :: (quoted ++ [quotation]))) =
          some (word.map .char ++ .wordEnd :: commandTokens (words ++ [quoted])) := by
      have htokens : commandTokens (word :: words ++ [quoted]) =
          word.map Token.char ++ .wordEnd :: commandTokens (words ++ [quoted]) := by
        show wordTokens word ++ commandTokens (words ++ [quoted]) = _
        rw [wordTokens, List.append_assoc]
        rfl
      rw [htokens, spaced_cons, List.cons_append, List.append_assoc]
      have hblank : splitter.run .word [' '] = some (.blank, [.wordEnd]) := by decide
      exact Transducer.read_append_iff hblank _ _
    rw [hstart]
    constructor
    · intro hread
      have hplain := plainWord_of_read hcostly (hne word List.mem_cons_self) hread
      have hrest := (Transducer.read_append_iff (run_plainWord hplain) _ _).mp hread
      intro other hother
      obtain rfl | hother := List.mem_cons.mp hother
      · exact hplain
      · exact (ih hne').mp hrest other hother
    · intro hall
      have hplain := hall word List.mem_cons_self
      have hrest := (ih hne').mpr fun other hother => hall other (List.mem_cons_of_mem word hother)
      exact (Transducer.read_append_iff (run_plainWord hplain) _ _).mpr hrest

/-! ### A command line -/

theorem intercalate_eq_spaced (front : List (List Char)) (word : List Char)
    (words : List (List Char)) :
    [' '].intercalate (front ++ word :: words) =
      (front.flatMap fun word => word ++ [' ']) ++ (word ++ spaced words) := by
  induction front with
  | nil =>
    induction words generalizing word with
    | nil => rw [List.nil_append, List.intercalate_singleton]; exact (List.append_nil word).symm
    | cons next words ih =>
      have hrest : [' '].intercalate (next :: words) = next ++ spaced words := ih next
      rw [List.nil_append, List.intercalate_cons_of_ne_nil (List.cons_ne_nil next words), hrest]
      show word ++ [' '] ++ (next ++ spaced words) = word ++ (' ' :: (next ++ spaced words))
      rw [List.append_assoc]
      rfl
  | cons first front ih =>
    rw [List.cons_append, List.intercalate_cons_of_ne_nil (by simp), ih, List.flatMap_cons,
      List.append_assoc (first ++ [' '])]

theorem run_front {front : List (List Char)} (h : ∀ word ∈ front, isPlainWord word = true) :
    splitter.run .blank (front.flatMap fun word => word ++ [' ']) = some (.blank, commandTokens front) := by
  induction front with
  | nil => rfl
  | cons word front ih =>
    have hend : splitter.run .word [' '] = some (.blank, [.wordEnd]) := by decide
    have hword := Transducer.run_append (run_plainWord (h word List.mem_cons_self)) hend
    exact Transducer.run_append hword (ih fun other hother => h other (List.mem_cons_of_mem word hother))

/-- A command with a variable in single quotes, free words, and a last word in double quotes. -/
theorem read_command_iff {front : List (List Char)} (hfront : ∀ word ∈ front, isPlainWord word = true)
    {setting value : List Char} (hvariable : isPlainWord setting = true)
    (hvalue : apostrophe ∉ value) {words : List (List Char)} (hne : ∀ word ∈ words, word ≠ [])
    {quoted : List Char} (hempty : quoted ≠ []) (hquoted : quoted.all isDoublePlain = true) :
    splitter.read .blank ([' '].intercalate (front ++ (setting ++ apostrophe :: (value ++ [apostrophe])) ::
        (words ++ [quotation :: (quoted ++ [quotation])]))) =
      some (commandTokens (front ++ (setting ++ value) :: (words ++ [quoted]))) ↔
      ∀ word ∈ words, isPlainWord word = true := by
  have hspaced : spaced (words ++ [quotation :: (quoted ++ [quotation])]) =
      spaced words ++ ' ' :: quotation :: (quoted ++ [quotation]) := by
    show List.flatMap _ _ = _
    rw [List.flatMap_append]
    exact congrArg (spaced words ++ ·) (List.append_nil _)
  have htokens : commandTokens (front ++ (setting ++ value) :: (words ++ [quoted])) =
      (commandTokens front ++ (setting.map Token.char ++ value.map Token.char)) ++
        .wordEnd :: commandTokens (words ++ [quoted]) := by
    rw [commandTokens_append]
    show _ ++ (wordTokens (setting ++ value) ++ commandTokens (words ++ [quoted])) = _
    rw [wordTokens, List.map_append, List.append_assoc (commandTokens front),
      List.append_assoc (setting.map Token.char ++ value.map Token.char)]
    rfl
  have hrun := Transducer.run_append (run_front hfront)
    (Transducer.run_append (run_plainWord hvariable) (run_singleQuoted hvalue))
  rw [intercalate_eq_spaced, hspaced, htokens, ← List.append_assoc]
  exact (Transducer.read_append_iff hrun _ _).trans (read_spaced_iff hne hempty hquoted)

/-- The same for texts; `opened` is `setting` with the apostrophe that opens `value`. -/
theorem reads_command_iff {front : List String}
    (hfront : ∀ word ∈ front, isPlainWord word.toList = true) (opened setting : String)
    {value : String} (hopened : opened.toList = setting.toList ++ [apostrophe])
    (hsetting : isPlainWord setting.toList = true) (hvalue : apostrophe ∉ value.toList)
    {words : List String} (hne : ∀ word ∈ words, word.toList ≠ []) {quoted : String}
    (hempty : quoted.toList ≠ []) (hquoted : quoted.toList.all isDoublePlain = true) :
    Reads (" ".intercalate (front ++ (opened ++ value ++ "'") :: (words ++ ["\"" ++ quoted ++ "\""])))
        [front ++ (setting ++ value) :: (words ++ [quoted])] ↔
      ∀ word ∈ words, isPlainWord word.toList = true := by
  have hfront' : ∀ word ∈ front.map String.toList, isPlainWord word = true :=
    List.forall_mem_map.mpr hfront
  have hne' : ∀ word ∈ words.map String.toList, word ≠ [] := List.forall_mem_map.mpr hne
  have hquote : ("'" : String).toList = [apostrophe] := by decide
  have hdouble : ("\"" : String).toList = [quotation] := by decide
  have hline := read_command_iff hfront' hsetting hvalue hne' hempty hquoted
  unfold Reads
  rw [String.toList_intercalate]
  simp only [List.map_append, List.map_cons, List.map_nil, String.toList_append, hopened, hquote,
    hdouble, pipelineTokens, List.append_assoc, List.singleton_append] at hline ⊢
  rw [List.forall_mem_map] at hline
  exact hline

theorem isPlainWord_append {front : List Char} (h : isPlainWord front = true) (back : List Char) :
    isPlainWord (front ++ back) = true ↔ back.all isPlain = true := by
  cases front with
  | nil => cases h
  | cons c front =>
    simp only [isPlainWord, List.cons_append, List.all_cons, List.all_append, Bool.and_eq_true,
      decide_eq_true_eq] at h ⊢
    constructor
    · exact fun hall => hall.2.2.2
    · exact fun hback => ⟨h.1, h.2.1, h.2.2, hback⟩

theorem isPlainWord_append_plain {front : List Char} (hne : front ≠ []) {back : List Char}
    (h : back.all isPlain = true) : isPlainWord (front ++ back) = true ↔ isPlainWord front = true := by
  cases front with
  | nil => exact absurd rfl hne
  | cons c front =>
    simp only [isPlainWord, List.cons_append, List.all_cons, List.all_append, h, Bool.and_true]

end Shell
