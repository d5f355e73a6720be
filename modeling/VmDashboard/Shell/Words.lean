import VmDashboard.Machine.Transducer
import VmDashboard.Python.Text

/-!
# How a POSIX shell splits a line into words

Quotes, backslashes, blanks and pipes. Where a line holds another operator, an expansion, a pattern
or a comment outside the quotes that take its meaning away, its words are not the ones written.
-/

namespace Shell
open Machine (Transducer)
open Python (apostrophe quotation backslash)

inductive Mode
  /-- Between two words. -/
  | blank
  | word
  /-- After a backslash outside quotes, with a word begun or not. -/
  | escaped (begun : Bool)
  | single
  | double
  | doubleEscaped
  deriving DecidableEq

inductive Token
  | char (c : Char)
  | wordEnd
  | pipe
  deriving DecidableEq

def isBlank (c : Char) : Bool := c = ' ' || c = '\t'

/-- Operators, expansions and patterns. -/
def isSpecial (c : Char) : Bool := "$`&;<>()*?[\n".toList.contains c

/-- Expanded inside double quotes too. -/
def isExpansion (c : Char) : Bool := "$`".toList.contains c

/-- A character outside quotes that is no blank and no pipe. -/
def unquoted (c : Char) : Option (Mode × List Token) :=
  if c = apostrophe then some (.single, [])
  else if c = quotation then some (.double, [])
  else if isSpecial c then none
  else some (.word, [.char c])

def step : Mode → Char → Option (Mode × List Token)
  | .blank, c =>
    if isBlank c then some (.blank, [])
    else if c = '|' then some (.blank, [.pipe])
    else if c = backslash then some (.escaped false, [])
    else if c = '#' ∨ c = '~' then none
    else unquoted c
  | .word, c =>
    if isBlank c then some (.blank, [.wordEnd])
    else if c = '|' then some (.blank, [.wordEnd, .pipe])
    else if c = backslash then some (.escaped true, [])
    else unquoted c
  | .escaped begun, c =>
    if c = '\n' then some (if begun then .word else .blank, []) else some (.word, [.char c])
  | .single, c => if c = apostrophe then some (.word, []) else some (.single, [.char c])
  | .double, c =>
    if c = quotation then some (.word, [])
    else if c = backslash then some (.doubleEscaped, [])
    else if isExpansion c then none
    else some (.double, [.char c])
  | .doubleEscaped, c =>
    if isExpansion c ∨ c = quotation ∨ c = backslash then some (.double, [.char c])
    else if c = '\n' then some (.double, [])
    else some (.double, [.char backslash, .char c])

def finish : Mode → Option (List Token)
  | .blank => some []
  | .word => some [.wordEnd]
  | _ => none

def splitter : Transducer Mode Char Token := ⟨step, finish⟩

/-! ### What is read -/

def wordTokens (word : List Char) : List Token := word.map .char ++ [.wordEnd]

def commandTokens (words : List (List Char)) : List Token := words.flatMap wordTokens

def pipelineTokens : List (List (List Char)) → List Token
  | [] => []
  | [command] => commandTokens command
  | command :: commands => commandTokens command ++ .pipe :: pipelineTokens commands

/-- The line is the pipeline of these commands, each with these words, and nothing else. -/
def Reads (line : String) (pipeline : List (List String)) : Prop :=
  splitter.read .blank line.toList = some (pipelineTokens (pipeline.map fun words => words.map String.toList))

instance (line : String) (pipeline : List (List String)) : Decidable (Reads line pipeline) :=
  inferInstanceAs (Decidable (_ = _))

/-- A character that stands for itself inside a word. -/
def isPlain (c : Char) : Bool :=
  !isBlank c && c ≠ '|' && c ≠ backslash && c ≠ apostrophe && c ≠ quotation && !isSpecial c

theorem step_word_plain {c : Char} (h : isPlain c = true) :
    step .word c = some (.word, [.char c]) := by
  simp only [isPlain, Bool.and_eq_true, Bool.not_eq_true', decide_eq_true_eq] at h
  obtain ⟨⟨⟨⟨⟨hblank, hpipe⟩, hback⟩, hsingle⟩, hdouble⟩, hspecial⟩ := h
  simp [step, unquoted, hblank, hpipe, hback, hsingle, hdouble, hspecial]

/-- A word that is read as written wherever one may begin. -/
def isPlainWord (word : List Char) : Bool :=
  match word with
  | [] => false
  | c :: cs => c ≠ '#' && c ≠ '~' && (c :: cs).all isPlain

theorem step_blank_plain {c : Char} (h : isPlain c = true) (hhash : c ≠ '#') (htilde : c ≠ '~') :
    step .blank c = some (.word, [.char c]) := by
  simp only [isPlain, Bool.and_eq_true, Bool.not_eq_true', decide_eq_true_eq] at h
  obtain ⟨⟨⟨⟨⟨hblank, hpipe⟩, hback⟩, hsingle⟩, hdouble⟩, hspecial⟩ := h
  simp [step, unquoted, hblank, hpipe, hback, hsingle, hdouble, hspecial, hhash, htilde]

theorem run_word_plain {cs : List Char} (h : cs.all isPlain = true) :
    splitter.run .word cs = some (.word, cs.map .char) := by
  induction cs with
  | nil => rfl
  | cons c cs ih =>
    rw [List.all_cons, Bool.and_eq_true] at h
    rw [Transducer.run_cons (step_word_plain h.1), ih h.2]
    rfl

theorem run_plainWord {word : List Char} (h : isPlainWord word = true) :
    splitter.run .blank word = some (.word, word.map .char) := by
  cases word with
  | nil => cases h
  | cons c cs =>
    simp only [isPlainWord, Bool.and_eq_true, decide_eq_true_eq, List.all_cons] at h
    obtain ⟨⟨hhash, htilde⟩, hc, hcs⟩ := h
    rw [Transducer.run_cons (step_blank_plain hc hhash htilde), run_word_plain hcs]
    rfl

theorem run_single {cs : List Char} (h : apostrophe ∉ cs) :
    splitter.run .single cs = some (.single, cs.map .char) := by
  induction cs with
  | nil => rfl
  | cons c cs ih =>
    have hc : c ≠ apostrophe := fun hc => h (hc ▸ List.mem_cons_self)
    have hstep : step .single c = some (.single, [.char c]) := if_neg hc
    rw [Transducer.run_cons hstep, ih fun hmem => h (List.mem_cons_of_mem c hmem)]
    rfl

/-- `text` between apostrophes, after the beginning of a word. -/
theorem run_singleQuoted {cs : List Char} (h : apostrophe ∉ cs) :
    splitter.run .word (apostrophe :: (cs ++ [apostrophe])) = some (.word, cs.map .char) := by
  have hopen : step .word apostrophe = some (.single, []) := by decide
  have hclose : splitter.run .single [apostrophe] = some (.word, []) := by decide
  rw [Transducer.run_cons hopen, Transducer.run_append (run_single h) hclose, Option.map_some, List.append_nil]
  rfl

/-- A character that stands for itself between double quotes. -/
def isDoublePlain (c : Char) : Bool := c ≠ quotation && c ≠ backslash && !isExpansion c

theorem run_double {cs : List Char} (h : cs.all isDoublePlain = true) :
    splitter.run .double cs = some (.double, cs.map .char) := by
  induction cs with
  | nil => rfl
  | cons c cs ih =>
    rw [List.all_cons, Bool.and_eq_true] at h
    have hc := h.1
    simp only [isDoublePlain, Bool.and_eq_true, Bool.not_eq_true', decide_eq_true_eq] at hc
    have hstep : step .double c = some (.double, [.char c]) := by
      simp [step, hc.1.1, hc.1.2, hc.2]
    rw [Transducer.run_cons hstep, ih h.2]
    rfl

theorem run_doubleQuoted {cs : List Char} (h : cs.all isDoublePlain = true) :
    splitter.run .blank (quotation :: (cs ++ [quotation])) = some (.word, cs.map .char) := by
  have hopen : step .blank quotation = some (.double, []) := by decide
  have hclose : splitter.run .double [quotation] = some (.word, []) := by decide
  rw [Transducer.run_cons hopen, Transducer.run_append (run_double h) hclose, Option.map_some, List.append_nil]
  rfl

end Shell
