import VmDashboard.Machine.Transducer
import VmDashboard.Python.Text

/-!
# The tokens of a statement

Words, delimited identifiers, literals in apostrophes and two marks, each delimiter standing for itself
where it is doubled. A statement with anything else outside its quotes, a comment or an operator, has no
reading here.
-/

namespace Sql
open Machine (Transducer)
open Python (apostrophe quotation)

/-- What no quoted text can hold: a line end, which may continue or join a literal, and NUL. -/
def isBreak (c : Char) : Bool := c = '\n' || c = '\r' || c.toNat = 0

/-- The marks around a delimited identifier. -/
structure Dialect where
  opening : Char
  closing : Char
  opening_ne : opening ≠ apostrophe
  closing_plain : isBreak closing = false

def tsql : Dialect := ⟨'[', ']', by decide, by decide⟩

def postgresql : Dialect := ⟨quotation, quotation, by decide, by decide⟩

inductive Kind
  | name
  | literal
  deriving DecidableEq

def Dialect.opens (d : Dialect) : Kind → Char
  | .name => d.opening
  | .literal => apostrophe

def Dialect.closes (d : Dialect) : Kind → Char
  | .name => d.closing
  | .literal => apostrophe

inductive Token
  | word (text : List Char)
  | quoted (kind : Kind) (text : List Char)
  | equals
  | semicolon
  deriving DecidableEq

inductive Mode
  | between
  | word (text : List Char)
  | inside (kind : Kind) (text : List Char)
  /-- After a closing mark, which another one would make part of the text. -/
  | closed (kind : Kind) (text : List Char)
  deriving DecidableEq

def isWordStart (c : Char) : Bool := c.isAlpha || c = '_'

def isWordChar (c : Char) : Bool := c.isAlphanum || c = '_'

def separator (c : Char) : Option (List Token) :=
  if c = ' ' then some []
  else if c = '=' then some [.equals]
  else if c = ';' then some [.semicolon]
  else none

def step (d : Dialect) : Mode → Char → Option (Mode × List Token)
  | .between, c =>
    if c = d.opening then some (.inside .name [], [])
    else if c = apostrophe then some (.inside .literal [], [])
    else if isWordStart c then some (.word [c], [])
    else (separator c).map fun marks => (.between, marks)
  | .word text, c =>
    if isWordChar c then some (.word (text ++ [c]), [])
    else (separator c).map fun marks => (.between, .word text :: marks)
  | .inside kind text, c =>
    if isBreak c then none
    else if c = d.closes kind then some (.closed kind text, [])
    else some (.inside kind (text ++ [c]), [])
  | .closed kind text, c =>
    if c = d.closes kind then some (.inside kind (text ++ [c]), [])
    else (separator c).map fun marks => (.between, .quoted kind text :: marks)

def finish : Mode → Option (List Token)
  | .between => some []
  | .word text => some [.word text]
  | .inside _ _ => none
  | .closed kind text => some [.quoted kind text]

def lexer (d : Dialect) : Transducer Mode Char Token := ⟨step d, finish⟩

/-- The tokens of a statement, if it is one that is read here to its end. -/
def tokens (d : Dialect) (sql : String) : Option (List Token) := (lexer d).read .between sql.toList

/-! ### Quoted text -/

/-- `text` with each `c` in it twice. -/
def doubled (c : Char) (text : List Char) : List Char :=
  text.flatMap fun d => if d = c then [c, c] else [d]

variable {d : Dialect} {text : List Char}

theorem Dialect.closes_plain (d : Dialect) (kind : Kind) : isBreak (d.closes kind) = false := by
  cases kind with
  | name => exact d.closing_plain
  | literal => rfl

theorem step_between_opens (d : Dialect) (kind : Kind) :
    step d .between (d.opens kind) = some (.inside kind [], []) := by
  cases kind with
  | name => simp [step, Dialect.opens]
  | literal => simp [step, Dialect.opens, d.opening_ne.symm]

theorem step_inside_closes (d : Dialect) (kind : Kind) (text : List Char) :
    step d (.inside kind text) (d.closes kind) = some (.closed kind text, []) := by
  simp [step, d.closes_plain kind]

theorem step_closed_closes (d : Dialect) (kind : Kind) (text : List Char) :
    step d (.closed kind text) (d.closes kind) = some (.inside kind (text ++ [d.closes kind]), []) := by
  simp [step]

/-- The text between the marks comes back as it was before its closing marks were doubled. -/
theorem run_doubled (kind : Kind) (before : List Char) (h : ∀ c ∈ text, isBreak c = false) :
    (lexer d).run (.inside kind before) (doubled (d.closes kind) text) =
      some (.inside kind (before ++ text), []) := by
  induction text generalizing before with
  | nil => rw [List.append_nil]; rfl
  | cons c text ih =>
    have hc : isBreak c = false := h c List.mem_cons_self
    have hrest := ih (before ++ [c]) fun e he => h e (List.mem_cons_of_mem c he)
    rw [List.append_assoc, List.singleton_append] at hrest
    by_cases hcloses : c = d.closes kind
    · -- the first mark closes the text and the second takes that back
      have hcons : doubled (d.closes kind) (c :: text) =
          d.closes kind :: d.closes kind :: doubled (d.closes kind) text := by
        simp [doubled, hcloses]
      rw [hcloses] at hrest
      rw [hcons, hcloses, Transducer.run_cons (step_inside_closes d kind before),
        Transducer.run_cons (step_closed_closes d kind before), hrest]
      rfl
    · have hcons : doubled (d.closes kind) (c :: text) = c :: doubled (d.closes kind) text := by
        simp [doubled, hcloses]
      have hstep : step d (.inside kind before) c = some (.inside kind (before ++ [c]), []) := by
        simp [step, hc, hcloses]
      rw [hcons, Transducer.run_cons hstep, hrest]
      rfl

/-- `text` between its marks. -/
def delimited (d : Dialect) (kind : Kind) (text : List Char) : List Char :=
  d.opens kind :: (doubled (d.closes kind) text ++ [d.closes kind])

theorem run_delimited (kind : Kind) (h : ∀ c ∈ text, isBreak c = false) :
    (lexer d).run .between (delimited d kind text) = some (.closed kind text, []) := by
  have hclose : (lexer d).run (.inside kind text) [d.closes kind] = some (.closed kind text, []) := by
    rw [Transducer.run_cons (step_inside_closes d kind text)]
    rfl
  have hinside := Transducer.run_append (run_doubled kind [] h) hclose
  rw [delimited, Transducer.run_cons (step_between_opens d kind), hinside]
  rfl

end Sql
