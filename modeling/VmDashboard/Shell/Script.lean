import VmDashboard.Shell.Words

/-!
# Lists of commands in a shell line

`&&`, `||`, `;` and brace groups, over the words of the splitter. A line outside this grammar, one
whose words the splitter refuses and one with a command the shell keeps for itself are not read.
-/

namespace Shell
open Machine (Transducer)
open Python (apostrophe quotation)

def openBrace : Char := Char.ofNat 123

def closeBrace : Char := Char.ofNat 125

/-! ### The marks of a line -/

inductive Mark
  | token (t : Token)
  | and
  | or
  | semicolon
  /-- A brace that stands alone, where a word could have begun. -/
  | brace (c : Char)
  deriving DecidableEq

inductive Scan
  | within (m : Mode)
  | ampersand
  | bar
  | brace (c : Char)
  deriving DecidableEq

def isOperator (c : Char) : Bool := c = '&' || c = '|' || c = ';'

def wordEnded (m : Mode) : List Mark := if m = .word then [.token .wordEnd] else []

def scanWord (m : Mode) (c : Char) : Option (Scan × List Mark) :=
  (step m c).map fun (m, out) => (.within m, out.map .token)

/-- Outside quotes, between two words or in one. -/
def scanOpen (m : Mode) (c : Char) : Option (Scan × List Mark) :=
  if c = '&' then some (.ampersand, wordEnded m)
  else if c = '|' then some (.bar, wordEnded m)
  else if c = ';' then some (.within .blank, wordEnded m ++ [.semicolon])
  else scanWord m c

def scan : Scan → Char → Option (Scan × List Mark)
  | .within .blank, c =>
    if c = openBrace ∨ c = closeBrace then some (.brace c, []) else scanOpen .blank c
  | .within .word, c => scanOpen .word c
  | .within m, c => scanWord m c
  | .ampersand, c => if c = '&' then some (.within .blank, [.and]) else none
  | .bar, c => if c = '|' then some (.within .blank, [.or]) else none
  | .brace b, c =>
    if isBlank c || isOperator c then
      (scanOpen .blank c).map fun (s, out) => (s, .brace b :: out)
    else (scanOpen .word c).map fun (s, out) => (s, .token (.char b) :: out)

def scanEnd : Scan → Option (List Mark)
  | .within m => (finish m).map (List.map .token)
  | .brace b => some [.brace b]
  | _ => none

def scanner : Transducer Scan Char Mark := ⟨scan, scanEnd⟩

/-! ### Lexemes -/

inductive Lexeme
  | word (text : String)
  | and
  | or
  | semicolon
  | brace (c : Char)
  deriving DecidableEq

/-- `part` is what has been read of the word at hand. -/
def lexemes (part : List Char) : List Mark → Option (List Lexeme)
  | [] => some []
  | .token (.char c) :: marks => lexemes (part ++ [c]) marks
  | .token .wordEnd :: marks => (lexemes [] marks).map (.word (String.ofList part) :: ·)
  | .token .pipe :: _ => none
  | .and :: marks => (lexemes [] marks).map (.and :: ·)
  | .or :: marks => (lexemes [] marks).map (.or :: ·)
  | .semicolon :: marks => (lexemes [] marks).map (.semicolon :: ·)
  | .brace c :: marks => (lexemes [] marks).map (.brace c :: ·)

/-! ### Scripts -/

inductive Script
  | command (words : List String)
  | and (first second : Script)
  | or (first second : Script)
  | both (first second : Script)
  deriving DecidableEq

/-- The exit status and what the commands leave behind. `exec` runs one command. -/
def Script.run {W : Type*} (exec : List String → W → ℕ × W) : Script → W → ℕ × W
  | .command words, w => exec words w
  | .and first second, w =>
    match first.run exec w with
    | (0, w) => second.run exec w
    | failed => failed
  | .or first second, w =>
    match first.run exec w with
    | (0, w) => (0, w)
    | (_, w) => second.run exec w
  | .both first second, w => second.run exec (first.run exec w).2

theorem Script.run_and_assoc {W : Type*} (exec : List String → W → ℕ × W) (a b c : Script) (w : W) :
    (Script.and (.and a b) c).run exec w = (Script.and a (.and b c)).run exec w := by
  simp only [Script.run]
  rcases a.run exec w with ⟨_ | code, w⟩ <;> rfl

/-- Reserved words, and the builtins that act on the shell itself. -/
def isKept (word : String) : Bool :=
  ["!", "case", "do", "done", "elif", "else", "esac", "fi", "for", "function", "if", "in", "select", "then", "time",
   "until", "while", ".", "alias", "break", "builtin", "cd", "command", "continue", "eval", "exec", "exit", "export",
   "readonly", "return", "set", "shift", "source", "trap", "unalias", "unset"].contains word ||
    word.toList.contains '='

inductive Joint
  | and
  | or
  deriving DecidableEq

def Joint.join : Joint → Script → Script → Script
  | .and => .and
  | .or => .or

/-- What is read of one list. -/
structure Frame where
  /-- The lists before the last semicolon. -/
  earlier : Option Script
  /-- The commands before the last operator, and the operator. -/
  left : Option (Script × Joint)
  deriving DecidableEq

def Frame.empty : Frame := ⟨none, none⟩

def Frame.join (f : Frame) (s : Script) : Script :=
  match f.left with
  | none => s
  | some (left, joint) => joint.join left s

def Frame.close (f : Frame) (s : Script) : Script :=
  match f.earlier with
  | none => f.join s
  | some earlier => .both earlier (f.join s)

inductive Place
  /-- A command must begin. -/
  | opening
  /-- After a semicolon. -/
  | between
  | words (first : String) (rest : List String)
  /-- After the brace that closes a group. -/
  | closed (group : Script)
  deriving DecidableEq

def Place.command? : Place → Option Script
  | .words first rest => some (.command (first :: rest))
  | .closed group => some group
  | _ => none

def Place.isStart : Place → Bool
  | .opening | .between => true
  | _ => false

structure Reader where
  outer : List Frame
  frame : Frame
  place : Place
  deriving DecidableEq

def Reader.start : Reader := ⟨[], .empty, .opening⟩

def Reader.word (r : Reader) (text : String) : Option Reader :=
  match r.place with
  | .words first rest => some { r with place := .words first (rest ++ [text]) }
  | .closed _ => none
  | _ => if isKept text then none else some { r with place := .words text [] }

def Reader.joint (r : Reader) (j : Joint) : Option Reader :=
  r.place.command?.map fun s =>
    { r with frame := { r.frame with left := some (r.frame.join s, j) }, place := .opening }

def Reader.semicolon (r : Reader) : Option Reader :=
  r.place.command?.map fun s => { r with frame := ⟨some (r.frame.close s), none⟩, place := .between }

def Reader.leave (r : Reader) (s : Script) : Option Reader :=
  match r.outer with
  | [] => none
  | frame :: outer => some ⟨outer, frame, .closed s⟩

def Reader.brace (r : Reader) (c : Char) : Option Reader :=
  match r.place with
  | .words first rest => some { r with place := .words first (rest ++ [String.singleton c]) }
  | .closed s => if c = closeBrace then r.leave (r.frame.close s) else none
  | .opening => if c = openBrace then some ⟨r.frame :: r.outer, .empty, .opening⟩ else none
  | .between =>
    if c = openBrace then some ⟨r.frame :: r.outer, .empty, .opening⟩
    else r.frame.earlier.bind r.leave

def Reader.read (r : Reader) : Lexeme → Option Reader
  | .word text => r.word text
  | .and => r.joint .and
  | .or => r.joint .or
  | .semicolon => r.semicolon
  | .brace c => r.brace c

def Reader.finish (r : Reader) : Option Script :=
  if r.outer.isEmpty then
    match r.place with
    | .between => r.frame.earlier
    | place => place.command?.map r.frame.close
  else none

/-- The script of a line, where the line is one. -/
def script (line : String) : Option Script := do
  let marks ← scanner.read (.within .blank) line.toList
  let ls ← lexemes [] marks
  let r ← ls.foldlM Reader.read Reader.start
  r.finish

/-! ### What a text is read as -/

def charMark (c : Char) : Mark := .token (.char c)

theorem lexemes_chars (part cs : List Char) (marks : List Mark) :
    lexemes part (cs.map charMark ++ marks) = lexemes (part ++ cs) marks := by
  induction cs generalizing part with
  | nil => rw [List.map_nil, List.nil_append, List.append_nil]
  | cons c cs ih =>
    have hstep : lexemes part (charMark c :: (cs.map charMark ++ marks)) =
        lexemes (part ++ [c]) (cs.map charMark ++ marks) := rfl
    rw [List.map_cons, List.cons_append, hstep, ih, List.append_assoc, List.singleton_append]

/-- The text is these lexemes, and stays so before a blank. -/
def Lexed (text : List Char) (ls : List Lexeme) : Prop :=
  ∃ s marks last, scanner.run (.within .blank) text = some (s, marks) ∧
    scan s ' ' = some (.within .blank, last) ∧ scanEnd s = some last ∧
    ∀ more, lexemes [] (marks ++ last ++ more) = (lexemes [] more).map (ls ++ ·)

/-- The text is a word that is not at its end yet. -/
def Written (text value : List Char) : Prop :=
  scanner.run (.within .blank) text = some (.within .word, value.map charMark)

theorem Lexed.append {a b : List Char} {ls ms : List Lexeme} (ha : Lexed a ls) (hb : Lexed b ms) :
    Lexed (a ++ ' ' :: b) (ls ++ ms) := by
  obtain ⟨s, marks, last, hrun, hblank, -, hlex⟩ := ha
  obtain ⟨s', marks', last', hrun', hblank', hend', hlex'⟩ := hb
  have htail : scanner.run s (' ' :: b) = some (s', last ++ marks') := by
    rw [Transducer.run_cons hblank, hrun', Option.map_some]
  refine ⟨s', marks ++ (last ++ marks'), last', Transducer.run_append hrun htail, hblank', hend', ?_⟩
  intro more
  have hassoc : marks ++ (last ++ marks') ++ last' ++ more =
      marks ++ last ++ (marks' ++ last' ++ more) := by simp only [List.append_assoc]
  rw [hassoc, hlex, hlex', Option.map_map]
  congr 1
  funext tail
  exact (List.append_assoc ls ms tail).symm

theorem Lexed.read {text : List Char} {ls : List Lexeme} (h : Lexed text ls) :
    ∃ marks, scanner.read (.within .blank) text = some marks ∧ lexemes [] marks = some ls := by
  obtain ⟨s, marks, last, hrun, -, hend, hlex⟩ := h
  have hread := Transducer.read_append hrun []
  have hlast : scanner.read s [] = some last := hend
  rw [List.append_nil, hlast, Option.map_some] at hread
  have hall := hlex []
  rw [List.append_nil] at hall
  exact ⟨marks ++ last, hread, hall.trans (congrArg some (List.append_nil ls))⟩

theorem lexed_and : Lexed ['&', '&'] [.and] :=
  ⟨.within .blank, [.and], [], by decide, by decide, by decide, fun _ => rfl⟩

theorem lexed_or : Lexed ['|', '|'] [.or] :=
  ⟨.within .blank, [.or], [], by decide, by decide, by decide, fun _ => rfl⟩

theorem lexed_openBrace : Lexed [openBrace] [.brace openBrace] :=
  ⟨.brace openBrace, [], [.brace openBrace], by decide, by decide, by decide, fun _ => rfl⟩

theorem lexed_closeBrace : Lexed [closeBrace] [.brace closeBrace] :=
  ⟨.brace closeBrace, [], [.brace closeBrace], by decide, by decide, by decide, fun _ => rfl⟩

theorem Written.lexed {text value : List Char} (h : Written text value) :
    Lexed text [.word (String.ofList value)] := by
  refine ⟨.within .word, value.map charMark, [.token .wordEnd], h, by decide, by decide, ?_⟩
  intro more
  rw [List.append_assoc, lexemes_chars]
  rfl

theorem Written.lexed_semicolon {text value : List Char} (h : Written text value) :
    Lexed (text ++ [';']) [.word (String.ofList value), .semicolon] := by
  have hlast : scanner.run (.within .word) [';'] =
      some (.within .blank, [.token .wordEnd, .semicolon]) := by decide
  refine ⟨.within .blank, _, [], Transducer.run_append h hlast, by decide, by decide, ?_⟩
  intro more
  rw [List.append_nil, List.append_assoc, lexemes_chars, List.nil_append]
  show ((lexemes [] more).map (.semicolon :: ·)).map (.word (String.ofList value) :: ·) = _
  rw [Option.map_map]
  rfl

/-! ### Words -/

theorem scanOpen_plain {m : Mode} {c : Char} (h : isPlain c = true) :
    scanOpen m c = scanWord m c := by
  have hchars : c ≠ '&' ∧ c ≠ '|' ∧ c ≠ ';' := by
    refine ⟨?_, ?_, ?_⟩ <;> rintro rfl <;> exact absurd h (by decide)
  rw [scanOpen, if_neg hchars.1, if_neg hchars.2.1, if_neg hchars.2.2]

theorem scan_word_plain {c : Char} (h : isPlain c = true) :
    scan (.within .word) c = some (.within .word, [charMark c]) := by
  have hscan : scan (.within .word) c = scanOpen .word c := rfl
  rw [hscan, scanOpen_plain h, scanWord, step_word_plain h]
  rfl

/-- A plain character that may stand first in a word. -/
def isPlainFirst (c : Char) : Bool :=
  isPlain c && c ≠ '#' && c ≠ '~' && c ≠ openBrace && c ≠ closeBrace

theorem scan_blank_plain {c : Char} (h : isPlainFirst c = true) :
    scan (.within .blank) c = some (.within .word, [charMark c]) := by
  simp only [isPlainFirst, Bool.and_eq_true, decide_eq_true_eq] at h
  obtain ⟨⟨⟨⟨hplain, hhash⟩, htilde⟩, hopen⟩, hclose⟩ := h
  have hscan : scan (.within .blank) c = scanOpen .blank c := if_neg (by simp [hopen, hclose])
  rw [hscan, scanOpen_plain hplain, scanWord, step_blank_plain hplain hhash htilde]
  rfl

theorem run_scan_plain {cs : List Char} (h : ∀ c ∈ cs, isPlain c = true) :
    scanner.run (.within .word) cs = some (.within .word, cs.map charMark) := by
  induction cs with
  | nil => rfl
  | cons c cs ih =>
    have hc : scanner.step (.within .word) c = some (.within .word, [charMark c]) :=
      scan_word_plain (h c List.mem_cons_self)
    rw [Transducer.run_cons hc, ih fun d hd => h d (List.mem_cons_of_mem c hd)]
    rfl

theorem written_plain {c : Char} {cs : List Char} (hfirst : isPlainFirst c = true)
    (h : ∀ d ∈ cs, isPlain d = true) : Written (c :: cs) (c :: cs) := by
  have hc : scanner.step (.within .blank) c = some (.within .word, [charMark c]) :=
    scan_blank_plain hfirst
  rw [Written, Transducer.run_cons hc, run_scan_plain h]
  rfl

/-- An apostrophe written so that it ends and reopens the quotes around it. -/
def quotedApostrophe : List Char := [apostrophe, quotation, apostrophe, quotation, apostrophe]

def requoted (cs : List Char) : List Char :=
  cs.flatMap fun c => if c = apostrophe then quotedApostrophe else [c]

theorem run_requoted (cs : List Char) :
    scanner.run (.within .single) (requoted cs) = some (.within .single, cs.map charMark) := by
  induction cs with
  | nil => rfl
  | cons c cs ih =>
    have hcons : requoted (c :: cs) =
        (if c = apostrophe then quotedApostrophe else [c]) ++ requoted cs := List.flatMap_cons
    have hfirst : scanner.run (.within .single) (if c = apostrophe then quotedApostrophe else [c]) =
        some (.within .single, [charMark c]) := by
      by_cases hc : c = apostrophe
      · subst hc
        decide
      · have hstep : step .single c = some (.single, [.char c]) := if_neg hc
        have hscan : scanner.step (.within .single) c = some (.within .single, [charMark c]) := by
          show scanWord .single c = _
          rw [scanWord, hstep]
          rfl
        rw [if_neg hc, Transducer.run_cons hscan]
        rfl
    rw [hcons, Transducer.run_append hfirst ih]
    rfl

/-- Whatever the text between the quotes is. -/
theorem written_quoted (cs : List Char) :
    Written (apostrophe :: (requoted cs ++ [apostrophe])) cs := by
  have hopen : scanner.step (.within .blank) apostrophe = some (.within .single, []) := by decide
  have hclose : scanner.run (.within .single) [apostrophe] = some (.within .word, []) := by decide
  rw [Written, Transducer.run_cons hopen, Transducer.run_append (run_requoted cs) hclose,
    Option.map_some, List.append_nil]
  rfl

/-! ### What a list of lexemes is read as -/

/-- Where a command may begin the lexemes are this one. -/
def IsCommand (ls : List Lexeme) (s : Script) : Prop :=
  ∀ r : Reader, r.place.isStart = true →
    ∃ place, ls.foldlM Reader.read r = some { r with place := place } ∧ place.command? = some s

/-- At the start of a list the lexemes are this one. -/
def IsList (ls : List Lexeme) (s : Script) : Prop :=
  ∀ r : Reader, r.place.isStart = true → r.frame = .empty →
    ∃ left place last, ls.foldlM Reader.read r = some ⟨r.outer, ⟨none, left⟩, place⟩ ∧
      place.command? = some last ∧ Frame.join ⟨none, left⟩ last = s

theorem foldlM_read {r r' : Reader} {l : Lexeme} (h : r.read l = some r') (ls : List Lexeme) :
    (l :: ls).foldlM Reader.read r = ls.foldlM Reader.read r' := by
  rw [List.foldlM_cons, h]
  rfl

theorem foldlM_words (r : Reader) (first : String) (rest words : List String)
    (h : r.place = .words first rest) :
    (words.map Lexeme.word).foldlM Reader.read r =
      some { r with place := .words first (rest ++ words) } := by
  induction words generalizing r rest with
  | nil =>
    obtain ⟨outer, frame, place⟩ := r
    subst h
    rw [List.append_nil]
    rfl
  | cons word words ih =>
    have hstep : r.read (.word word) = some { r with place := .words first (rest ++ [word]) } := by
      show r.word word = _
      rw [Reader.word, h]
    rw [List.map_cons, foldlM_read hstep]
    refine (ih { r with place := .words first (rest ++ [word]) } (rest ++ [word]) rfl).trans ?_
    rw [List.append_assoc, List.singleton_append]

theorem isCommand_words {first : String} (h : isKept first = false) (rest : List String) :
    IsCommand ((first :: rest).map .word) (.command (first :: rest)) := by
  intro r hr
  refine ⟨.words first rest, ?_, rfl⟩
  have hstep : r.read (.word first) = some { r with place := .words first [] } := by
    obtain ⟨outer, frame, place⟩ := r
    cases place with
    | opening | between => exact if_neg (by simp [h])
    | words | closed => cases hr
  rw [List.map_cons, foldlM_read hstep]
  exact foldlM_words { r with place := .words first [] } first [] rest rfl

theorem IsCommand.isList {ls : List Lexeme} {s : Script} (h : IsCommand ls s) : IsList ls s := by
  intro r hr hempty
  obtain ⟨place, hread, hplace⟩ := h r hr
  refine ⟨none, place, s, ?_, hplace, rfl⟩
  rw [hread, hempty]
  rfl

theorem IsList.joint {ls ms : List Lexeme} {a b : Script} (j : Joint) (ha : IsList ls a)
    (hb : IsCommand ms b) (l : Lexeme) (hl : ∀ r : Reader, r.read l = r.joint j) :
    IsList (ls ++ l :: ms) (j.join a b) := by
  intro r hr hempty
  obtain ⟨left, place, last, hread, hplace, hjoin⟩ := ha r hr hempty
  obtain ⟨place', hread', hplace'⟩ :=
    hb ⟨r.outer, ⟨none, some (a, j)⟩, .opening⟩ rfl
  have hstep : Reader.read ⟨r.outer, ⟨none, left⟩, place⟩ l =
      some ⟨r.outer, ⟨none, some (a, j)⟩, .opening⟩ := by
    rw [hl, Reader.joint, hplace, ← hjoin]
    rfl
  refine ⟨some (a, j), place', b, ?_, hplace', rfl⟩
  rw [List.foldlM_append, hread]
  exact (foldlM_read hstep ms).trans hread'

theorem IsList.and {ls ms : List Lexeme} {a b : Script} (ha : IsList ls a) (hb : IsCommand ms b) :
    IsList (ls ++ .and :: ms) (.and a b) :=
  ha.joint .and hb .and fun _ => rfl

theorem IsList.or {ls ms : List Lexeme} {a b : Script} (ha : IsList ls a) (hb : IsCommand ms b) :
    IsList (ls ++ .or :: ms) (.or a b) :=
  ha.joint .or hb .or fun _ => rfl

/-- A list between braces is one command. -/
theorem IsList.group {ls : List Lexeme} {s : Script} (h : IsList ls s) :
    IsCommand (.brace openBrace :: (ls ++ [.semicolon, .brace closeBrace])) s := by
  intro r hr
  refine ⟨.closed s, ?_, rfl⟩
  have hopen : r.read (.brace openBrace) = some ⟨r.frame :: r.outer, .empty, .opening⟩ := by
    obtain ⟨outer, frame, place⟩ := r
    cases place with
    | opening | between => rfl
    | words | closed => cases hr
  obtain ⟨left, place, last, hread, hplace, hjoin⟩ :=
    h ⟨r.frame :: r.outer, .empty, .opening⟩ rfl rfl
  have hsemi : Reader.read ⟨r.frame :: r.outer, ⟨none, left⟩, place⟩ .semicolon =
      some ⟨r.frame :: r.outer, ⟨some s, none⟩, .between⟩ := by
    show Reader.semicolon _ = _
    rw [Reader.semicolon, hplace, ← hjoin]
    rfl
  have hclose : Reader.read ⟨r.frame :: r.outer, ⟨some s, none⟩, .between⟩ (.brace closeBrace) =
      some ⟨r.outer, r.frame, .closed s⟩ := rfl
  rw [foldlM_read hopen, List.foldlM_append, hread]
  exact (foldlM_read hsemi _).trans (foldlM_read hclose [])

/-- A text of such lexemes is this script. -/
theorem script_eq {line : String} {ls : List Lexeme} {s : Script} (htext : Lexed line.toList ls)
    (hlist : IsList ls s) : script line = some s := by
  obtain ⟨marks, hmarks, hls⟩ := htext.read
  obtain ⟨left, place, last, hread, hplace, hjoin⟩ := hlist Reader.start rfl rfl
  have hfinish : Reader.finish ⟨[], ⟨none, left⟩, place⟩ = some s := by
    cases place with
    | opening | between => cases hplace
    | words first rest =>
      cases hplace
      exact congrArg some hjoin
    | closed group =>
      cases hplace
      exact congrArg some hjoin
  rw [script, hmarks]
  show (lexemes [] marks >>= fun ls => _) = _
  rw [hls]
  show (List.foldlM Reader.read Reader.start ls >>= fun r => r.finish) = _
  rw [hread]
  exact hfinish

end Shell
