import Mathlib.Logic.Function.Basic
import VmDashboard.Machine.System
import VmDashboard.Python.Convert

/-!
# The one-time setup token (`services/setup_token.py`)

Workers look for the token's file at startup and in each request that would finish the setup, and one
that finds none writes a token to a temporary file and links it into place. Their calls of the file
system interleave in any order, a write may be cut anywhere, and a worker that stops takes no more
steps. `linked` are the tokens whose files ever had the name, `claims` the headers of the requests
that created the first administrator.
-/

namespace SetupToken
open Machine (System)

/-- `secrets.token_urlsafe(24)`: 32 characters. -/
def isToken (token : String) : Bool :=
  token.length = 32 && token.toList.all fun c => c.isAlphanum || c = '-' || c = '_'

/-- Where a worker stands, with the open file it holds. -/
inductive Phase
  | idle
  /-- In `ensure`, before `_read`. -/
  | looking
  | reading (inode : ℕ)
  /-- `_read` has returned nothing. -/
  | absent
  /-- In `_create`, with what is not written yet. -/
  | writing (inode : ℕ) (token : String) (left : List Char)
  | linking (inode : ℕ) (token : String)
  /-- The name was taken. -/
  | lost
  | rereading (inode : ℕ)
  /-- `ensure` has returned, `none` after an `OSError`. -/
  | answered (expected : Option String)
  /-- `require` has returned. -/
  | admitted
  | claimed
  | marked
  deriving DecidableEq

structure Worker where
  /-- The request's header, `none` at startup. -/
  sent : Option String
  phase : Phase
  deriving DecidableEq

structure World where
  content : ℕ → List Char
  inodes : ℕ
  file : Option ℕ
  workers : ℕ → Worker
  linked : List String
  claims : List String

inductive Act
  | ensure (sent : Option String)
  | openFile
  | read
  | draw (token : String)
  | write (count : ℕ)
  | close
  | link
  /-- An `OSError` in `ensure`. -/
  | fail
  | compare
  | claim
  | mark
  | discard
  /-- The answer, whatever it is. -/
  | leave

inductive Label
  | act (worker : ℕ) (act : Act)
  /-- Deleted by hand. -/
  | unlink

namespace World

def phase (w : World) (p : ℕ) : Phase := (w.workers p).phase

def goto (w : World) (p : ℕ) (phase : Phase) : World :=
  { w with workers := Function.update w.workers p ⟨(w.workers p).sent, phase⟩ }

def text (w : World) (inode : ℕ) : String := Python.strip (String.ofList (w.content inode))

/-- The new inode of a temporary file. -/
def draw (w : World) (p : ℕ) (token : String) : World :=
  { w with
    content := Function.update w.content w.inodes []
    inodes := w.inodes + 1 }.goto p (.writing w.inodes token (token.toList ++ ['\n']))

def write (w : World) (p inode : ℕ) (token : String) (part left : List Char) : World :=
  { w with content := Function.update w.content inode (w.content inode ++ part) }.goto p
    (.writing inode token left)

end World

def inEnsure : Phase → Bool
  | .looking | .reading _ | .absent | .writing _ _ _ | .linking _ _ | .lost | .rereading _ => true
  | _ => false

section
variable (env : String)

/-- `env` is what `_from_env` returns. -/
def World.begin (w : World) (p : ℕ) (sent : Option String) : World :=
  let phase := if env ≠ "" then Phase.answered (some env) else .looking
  { w with workers := Function.update w.workers p ⟨sent, phase⟩ }

/-- The header that `require` compares. -/
def stripped (sent : Option String) : String := Python.strip (sent.getD "")

def World.act (w : World) (p : ℕ) (a : Act) : Option World :=
  match w.phase p, a with
  | .idle, .ensure sent => some (w.begin env p sent)
  | .looking, .openFile =>
    some (w.goto p (match w.file with
      | some inode => .reading inode
      | none => .absent))
  | .reading inode, .read =>
    some (w.goto p (if w.text inode = "" then .absent else .answered (some (w.text inode))))
  | .absent, .draw token => if isToken token then some (w.draw p token) else none
  | .writing inode token left, .write count =>
    if left = [] ∨ count = 0 then none
    else some (w.write p inode token (left.take count) (left.drop count))
  | .writing inode token [], .close => some (w.goto p (.linking inode token))
  | .linking inode token, .link =>
    match w.file with
    | some _ => some (w.goto p .lost)
    | none =>
      some ({ w with file := some inode, linked := token :: w.linked }.goto p (.answered (some token)))
  | .lost, .openFile =>
    some (w.goto p (match w.file with
      | some inode => .rereading inode
      | none => .answered (some "")))
  | .rereading inode, .read => some (w.goto p (.answered (some (w.text inode))))
  | .answered expected, .compare =>
    let sent := stripped (w.workers p).sent
    some (w.goto p (if sent ≠ "" ∧ expected = some sent then .admitted else .idle))
  | .admitted, .claim =>
    some ({ w with claims := (w.workers p).sent.getD "" :: w.claims }.goto p .claimed)
  | .claimed, .mark => some (w.goto p .marked)
  | .marked, .discard =>
    some ({ w with file := if env ≠ "" then w.file else none }.goto p .idle)
  | phase, .fail => if inEnsure phase then some (w.goto p (.answered none)) else none
  | phase, .leave => if inEnsure phase then none else some (w.goto p .idle)
  | _, _ => none

def system : System World Label where
  step w
    | .act p a => w.act env p a
    | .unlink => some { w with file := none }

end

/-- A new instance. -/
def fresh : World := ⟨fun _ => [], 0, none, fun _ => ⟨none, .idle⟩, [], []⟩

/-! ### What one step does -/

inductive Step (env : String) (w : World) (p : ℕ) : Act → World → Prop
  | ensure (sent : Option String) : w.phase p = .idle → Step env w p (.ensure sent) (w.begin env p sent)
  | openSome {inode : ℕ} : w.phase p = .looking → w.file = some inode →
      Step env w p .openFile (w.goto p (.reading inode))
  | openNone : w.phase p = .looking → w.file = none → Step env w p .openFile (w.goto p .absent)
  | readBlank {inode : ℕ} : w.phase p = .reading inode → w.text inode = "" →
      Step env w p .read (w.goto p .absent)
  | read {inode : ℕ} : w.phase p = .reading inode →
      Step env w p .read (w.goto p (.answered (some (w.text inode))))
  | draw {token : String} : w.phase p = .absent → isToken token = true →
      Step env w p (.draw token) (w.draw p token)
  | write {inode : ℕ} {token : String} {left : List Char} (count : ℕ) :
      w.phase p = .writing inode token left →
      Step env w p (.write count) (w.write p inode token (left.take count) (left.drop count))
  | close {inode : ℕ} {token : String} : w.phase p = .writing inode token [] →
      Step env w p .close (w.goto p (.linking inode token))
  | taken {inode other : ℕ} {token : String} : w.phase p = .linking inode token →
      w.file = some other → Step env w p .link (w.goto p .lost)
  | link {inode : ℕ} {token : String} : w.phase p = .linking inode token → w.file = none →
      Step env w p .link
        ({ w with file := some inode, linked := token :: w.linked }.goto p (.answered (some token)))
  | reopenSome {inode : ℕ} : w.phase p = .lost → w.file = some inode →
      Step env w p .openFile (w.goto p (.rereading inode))
  | reopenNone : w.phase p = .lost → w.file = none →
      Step env w p .openFile (w.goto p (.answered (some "")))
  | reread {inode : ℕ} : w.phase p = .rereading inode →
      Step env w p .read (w.goto p (.answered (some (w.text inode))))
  | refuse {expected : Option String} : w.phase p = .answered expected →
      Step env w p .compare (w.goto p .idle)
  | accept : w.phase p = .answered (some (stripped (w.workers p).sent)) →
      stripped (w.workers p).sent ≠ "" → Step env w p .compare (w.goto p .admitted)
  | claim : w.phase p = .admitted →
      Step env w p .claim ({ w with claims := (w.workers p).sent.getD "" :: w.claims }.goto p .claimed)
  | mark : w.phase p = .claimed → Step env w p .mark (w.goto p .marked)
  | discard : w.phase p = .marked →
      Step env w p .discard ({ w with file := if env ≠ "" then w.file else none }.goto p .idle)
  | fail : Step env w p .fail (w.goto p (.answered none))
  | leave : Step env w p .leave (w.goto p .idle)

theorem act_step {env : String} {w w' : World} {p : ℕ} {a : Act} (h : w.act env p a = some w') :
    Step env w p a w' := by
  unfold World.act at h
  split at h
  next hphase => exact Option.some.inj h ▸ .ensure _ hphase
  next hphase =>
    obtain rfl := Option.some.inj h
    cases hfile : w.file with
    | none => exact .openNone hphase hfile
    | some inode => exact .openSome hphase hfile
  next inode hphase =>
    obtain rfl := Option.some.inj h
    by_cases hblank : w.text inode = ""
    · rw [if_pos hblank]
      exact .readBlank hphase hblank
    · rw [if_neg hblank]
      exact .read hphase
  next token hphase =>
    split at h
    next htoken => exact Option.some.inj h ▸ .draw hphase htoken
    · cases h
  next inode token left count hphase =>
    split at h
    · cases h
    · exact Option.some.inj h ▸ .write count hphase
  next inode token hphase => exact Option.some.inj h ▸ .close hphase
  next inode token hphase =>
    split at h
    next other hfile => exact Option.some.inj h ▸ .taken hphase hfile
    next hfile => exact Option.some.inj h ▸ .link hphase hfile
  next hphase =>
    obtain rfl := Option.some.inj h
    cases hfile : w.file with
    | none => exact .reopenNone hphase hfile
    | some inode => exact .reopenSome hphase hfile
  next inode hphase => exact Option.some.inj h ▸ .reread hphase
  next expected hphase =>
    obtain rfl := Option.some.inj h
    split
    next hsent =>
      rw [hsent.2] at hphase
      exact .accept hphase hsent.1
    · exact .refuse hphase
  next hphase => exact Option.some.inj h ▸ .claim hphase
  next hphase => exact Option.some.inj h ▸ .mark hphase
  next hphase => exact Option.some.inj h ▸ .discard hphase
  next =>
    split at h
    · exact Option.some.inj h ▸ .fail
    · cases h
  next =>
    split at h
    · cases h
    · exact Option.some.inj h ▸ .leave
  next => cases h

/-! ### The tokens are whole -/

/-- The open file a worker holds. -/
def Phase.inode : Phase → Option ℕ
  | .reading inode | .rereading inode | .writing inode _ _ | .linking inode _ => some inode
  | _ => none

/-- All of the token has been written. -/
def World.Whole (w : World) (token : String) (inode : ℕ) : Prop :=
  isToken token = true ∧ w.content inode = token.toList ++ ['\n']

/-- The environment's token, or one whose file had the name. -/
def Genuine (env : String) (linked : List String) (token : String) : Prop :=
  env ≠ "" ∧ token = env ∨ isToken token = true ∧ token ∈ linked

def PhaseSound (env : String) (w : World) (sent : Option String) : Phase → Prop
  | .reading inode | .rereading inode => ∃ token ∈ w.linked, w.Whole token inode
  | .writing inode token left =>
    isToken token = true ∧ w.content inode ++ left = token.toList ++ ['\n']
  | .linking inode token => w.Whole token inode
  | .answered (some token) => token = "" ∨ Genuine env w.linked token
  | .admitted | .claimed | .marked => Genuine env w.linked (stripped sent)
  | _ => True

structure Sound (env : String) (w : World) : Prop where
  file : ∀ inode, w.file = some inode → inode < w.inodes ∧ ∃ token ∈ w.linked, w.Whole token inode
  phase : ∀ p, PhaseSound env w (w.workers p).sent (w.phase p)
  bound : ∀ p inode, (w.phase p).inode = some inode → inode < w.inodes
  /-- A file that is being written is nobody else's. -/
  own : ∀ p inode token left, w.phase p = .writing inode token left →
    w.file ≠ some inode ∧ ∀ q, q ≠ p → (w.phase q).inode ≠ some inode
  claims : ∀ sent ∈ w.claims, Genuine env w.linked (Python.strip sent)

theorem not_isSpace {c : Char} (h : (c.isAlphanum || c = '-' || c = '_') = true) :
    Python.isSpace c = false := by
  have hrange : 45 ≤ c.toNat ∧ c.toNat ≤ 122 := by
    simp only [Bool.or_eq_true, decide_eq_true_eq] at h
    rcases h with (h | rfl) | rfl
    · delta Char.isAlphanum Char.isAlpha Char.isUpper Char.isLower Char.isDigit at h
      simp only [Bool.or_eq_true, Bool.and_eq_true, decide_eq_true_eq, ge_iff_le, UInt32.le_iff_toNat_le] at h
      exact ⟨by rcases h with (h | h) | h <;> exact le_trans (by decide) h.1,
        by rcases h with (h | h) | h <;> exact le_trans h.2 (by decide)⟩
    · decide
    · decide
  simp only [Python.isSpace, Bool.or_eq_false_iff, Bool.and_eq_false_iff, decide_eq_false_iff_not]
  omega

theorem strip_token {token : String} (h : isToken token = true) :
    Python.strip (String.ofList (token.toList ++ ['\n'])) = token := by
  have hne : token.toList ≠ [] := fun hnil => by
    rw [String.toList_injective (hnil.trans rfl : token.toList = "".toList)] at h
    cases h
  simp only [isToken, Bool.and_eq_true, decide_eq_true_eq] at h
  have hsolid : ∀ c ∈ token.toList, Python.isSpace c = false := fun c hc =>
    not_isSpace (List.all_eq_true.mp h.2 c hc)
  have hstop {cs rest : List Char} (hcs : cs ≠ []) (hall : ∀ c ∈ cs, Python.isSpace c = false) :
      (cs ++ rest).dropWhile Python.isSpace = cs ++ rest := by
    obtain ⟨c, cs, rfl⟩ := List.exists_cons_of_ne_nil hcs
    exact List.dropWhile_cons_of_neg (by simp [hall c List.mem_cons_self])
  have hback : (token.toList.reverse).dropWhile Python.isSpace = token.toList.reverse := by
    have hall := @hstop token.toList.reverse [] (List.reverse_eq_nil_iff.not.mpr hne)
      fun c hc => hsolid c (List.mem_reverse.mp hc)
    rwa [List.append_nil] at hall
  unfold Python.strip
  rw [String.toList_ofList, hstop hne hsolid, List.reverse_append]
  show String.ofList (('\n' :: token.toList.reverse).dropWhile Python.isSpace).reverse = token
  rw [List.dropWhile_cons_of_pos (by decide), hback, List.reverse_reverse, String.ofList_toList]

theorem World.text_whole {w : World} {token : String} {inode : ℕ} (h : w.Whole token inode) :
    w.text inode = token := by
  rw [World.text, h.2, strip_token h.1]

theorem PhaseSound.mono {env : String} {w w' : World} {sent : Option String} {phase : Phase}
    (hlinked : ∀ token ∈ w.linked, token ∈ w'.linked)
    (hcontent : ∀ inode, phase.inode = some inode → w'.content inode = w.content inode)
    (h : PhaseSound env w sent phase) : PhaseSound env w' sent phase := by
  have hgenuine {token : String} (h : Genuine env w.linked token) : Genuine env w'.linked token :=
    h.imp id fun h => ⟨h.1, hlinked token h.2⟩
  cases phase with
  | reading inode | rereading inode =>
    obtain ⟨token, hmem, htoken, htext⟩ := h
    exact ⟨token, hlinked token hmem, htoken, (hcontent inode rfl).trans htext⟩
  | writing inode token left => exact ⟨h.1, by rw [hcontent inode rfl, h.2]⟩
  | linking inode token => exact ⟨h.1, (hcontent inode rfl).trans h.2⟩
  | answered expected =>
    cases expected with
    | none => trivial
    | some token => exact h.imp id hgenuine
  | admitted | claimed | marked => exact hgenuine h
  | idle | looking | absent | lost => trivial

theorem phase_goto (w : World) (p q : ℕ) (phase : Phase) :
    (w.goto p phase).phase q = if q = p then phase else w.phase q := by
  unfold World.phase World.goto
  by_cases h : q = p
  · rw [h, if_pos rfl]
    simp only [Function.update_self]
  · rw [if_neg h]
    simp only [Function.update_of_ne h]

theorem sent_goto (w : World) (p q : ℕ) (phase : Phase) :
    ((w.goto p phase).workers q).sent = (w.workers q).sent := by
  unfold World.goto
  by_cases h : q = p
  · rw [h]
    simp only [Function.update_self]
  · simp only [Function.update_of_ne h]

/-- A step that leaves what the files hold as it is, to a phase that no file is written in. -/
theorem Sound.move {env : String} {w : World} (h : Sound env w) (p : ℕ) (phase : Phase)
    (file : Option ℕ) (linked claims : List String) (hlinked : ∀ token ∈ w.linked, token ∈ linked)
    (hfile : ∀ inode, file = some inode → inode < w.inodes ∧ (∃ token ∈ linked, w.Whole token inode) ∧
      ∀ q token left, w.phase q ≠ .writing inode token left)
    (hphase : PhaseSound env { w with linked := linked } (w.workers p).sent phase)
    (hinode : ∀ inode, phase.inode = some inode → inode < w.inodes ∧
      ∀ q token left, q ≠ p → w.phase q ≠ .writing inode token left)
    (hstill : ∀ inode token left, phase ≠ .writing inode token left)
    (hclaims : ∀ sent ∈ claims, Genuine env linked (Python.strip sent)) :
    Sound env ({ w with file := file, linked := linked, claims := claims }.goto p phase) := by
  let moved : World := { w with file := file, linked := linked, claims := claims }
  have hphases (q : ℕ) : (moved.goto p phase).phase q = if q = p then phase else w.phase q :=
    phase_goto moved p q phase
  have hsents (q : ℕ) : ((moved.goto p phase).workers q).sent = (w.workers q).sent :=
    sent_goto moved p q phase
  refine ⟨fun inode hinode => ⟨(hfile inode hinode).1, (hfile inode hinode).2.1⟩, fun q => ?_,
    fun q inode hq => ?_, fun q inode token left hq => ?_, hclaims⟩
  · rw [hphases, hsents]
    by_cases hqp : q = p
    · rw [if_pos hqp, hqp]
      exact hphase.mono (fun _ hmem => hmem) fun _ _ => rfl
    · rw [if_neg hqp]
      exact (h.phase q).mono hlinked fun _ _ => rfl
  · rw [hphases] at hq
    by_cases hqp : q = p
    · rw [if_pos hqp] at hq
      exact (hinode inode hq).1
    · rw [if_neg hqp] at hq
      exact h.bound q inode hq
  · rw [hphases] at hq
    by_cases hqp : q = p
    · rw [if_pos hqp] at hq
      exact absurd hq (hstill inode token left)
    · rw [if_neg hqp] at hq
      refine ⟨fun hsome => (hfile inode hsome).2.2 q token left hq, fun r hr => ?_⟩
      rw [hphases]
      by_cases hrp : r = p
      · rw [if_pos hrp]
        exact fun hsome => (hinode inode hsome).2 q token left hqp hq
      · rw [if_neg hrp]
        exact (h.own q inode token left hq).2 r hr

theorem Sound.file_still {env : String} {w : World} (h : Sound env w) {inode : ℕ}
    (hfile : w.file = some inode) (q : ℕ) (token : String) (left : List Char) :
    w.phase q ≠ .writing inode token left :=
  fun hq => (h.own q inode token left hq).1 hfile

theorem Sound.named {env : String} {w : World} (h : Sound env w) {inode : ℕ}
    (hfile : w.file = some inode) : inode < w.inodes ∧ (∃ token ∈ w.linked, w.Whole token inode) ∧
      ∀ q token left, w.phase q ≠ .writing inode token left :=
  ⟨(h.file inode hfile).1, (h.file inode hfile).2, h.file_still hfile⟩

/-- A step that moves one worker, to a phase with the file it has open, the token's file or none. -/
theorem Sound.goto {env : String} {w : World} (h : Sound env w) (p : ℕ) {phase : Phase}
    (hphase : PhaseSound env w (w.workers p).sent phase)
    (hinode : phase.inode = none ∨ phase.inode = (w.phase p).inode ∨ phase.inode = w.file)
    (hstill : ∀ inode token left, phase ≠ .writing inode token left) : Sound env (w.goto p phase) := by
  refine h.move p phase w.file w.linked w.claims (fun _ hmem => hmem) (fun inode hfile => h.named hfile)
    hphase (fun inode hsome => ?_) hstill h.claims
  rcases hinode with hnone | hown | hfile
  · rw [hnone] at hsome
    cases hsome
  · have hp : (w.phase p).inode = some inode := hown.symm.trans hsome
    exact ⟨h.bound p inode hp, fun q token left hq hwriting =>
      (h.own q inode token left hwriting).2 p (Ne.symm hq) hp⟩
  · have hfile : w.file = some inode := hfile.symm.trans hsome
    exact ⟨(h.file inode hfile).1, fun q token left _ => h.file_still hfile q token left⟩

theorem phase_begin (env : String) (w : World) (p q : ℕ) (sent : Option String) :
    (w.begin env p sent).phase q =
      if q = p then (if env ≠ "" then .answered (some env) else .looking) else w.phase q := by
  unfold World.phase World.begin
  by_cases h : q = p
  · rw [h, if_pos rfl]
    simp only [Function.update_self]
  · rw [if_neg h]
    simp only [Function.update_of_ne h]

theorem Sound.begin {env : String} {w : World} (h : Sound env w) (p : ℕ) (sent : Option String) :
    Sound env (w.begin env p sent) := by
  have hfirst (inode : ℕ) (token : String) (left : List Char) :
      (if env ≠ "" then Phase.answered (some env) else .looking) ≠ .writing inode token left := by
    split <;> exact Phase.noConfusion
  have hinode : (if env ≠ "" then Phase.answered (some env) else .looking).inode = none := by
    split <;> rfl
  refine ⟨h.file, fun q => ?_, fun q inode hq => ?_, fun q inode token left hq => ?_, h.claims⟩
  · by_cases hqp : q = p
    · rw [phase_begin, if_pos hqp]
      split
      next henv => exact .inr (.inl ⟨henv, rfl⟩)
      · trivial
    · have hworker : (w.begin env p sent).workers q = w.workers q := Function.update_of_ne hqp _ _
      rw [phase_begin, if_neg hqp, hworker]
      exact (h.phase q).mono (fun _ hmem => hmem) fun _ _ => rfl
  · rw [phase_begin] at hq
    by_cases hqp : q = p
    · rw [if_pos hqp, hinode] at hq
      cases hq
    · rw [if_neg hqp] at hq
      exact h.bound q inode hq
  · rw [phase_begin] at hq
    by_cases hqp : q = p
    · rw [if_pos hqp] at hq
      exact absurd hq (hfirst inode token left)
    · rw [if_neg hqp] at hq
      refine ⟨(h.own q inode token left hq).1, fun r hr => ?_⟩
      rw [phase_begin]
      by_cases hrp : r = p
      · rw [if_pos hrp, hinode]
        exact fun hsome => by cases hsome
      · rw [if_neg hrp]
        exact (h.own q inode token left hq).2 r hr

theorem phase_draw (w : World) (p q : ℕ) (token : String) :
    (w.draw p token).phase q =
      if q = p then .writing w.inodes token (token.toList ++ ['\n']) else w.phase q :=
  phase_goto _ p q _

/-- A file made now is nobody else's. -/
theorem Sound.draw {env : String} {w : World} (h : Sound env w) (p : ℕ) {token : String}
    (htoken : isToken token = true) : Sound env (w.draw p token) := by
  have hold {inode : ℕ} (hlt : inode < w.inodes) : (w.draw p token).content inode = w.content inode :=
    Function.update_of_ne (Nat.ne_of_lt hlt) _ _
  have hsent (q : ℕ) : ((w.draw p token).workers q).sent = (w.workers q).sent := sent_goto _ p q _
  refine ⟨fun inode hfile => ?_, fun q => ?_, fun q inode hq => ?_, fun q inode other left hq => ?_,
    h.claims⟩
  · obtain ⟨hlt, other, hmem, hother, htext⟩ := h.file inode hfile
    exact ⟨Nat.lt_succ_of_lt hlt, other, hmem, hother, (hold hlt).trans htext⟩
  · rw [phase_draw, hsent]
    by_cases hqp : q = p
    · have hempty : (w.draw p token).content w.inodes = [] := Function.update_self _ _ _
      rw [if_pos hqp]
      exact ⟨htoken, by rw [hempty, List.nil_append]⟩
    · rw [if_neg hqp]
      exact @PhaseSound.mono env w (w.draw p token) _ _ (fun _ hmem => hmem)
        (fun inode hinode => hold (h.bound q inode hinode)) (h.phase q)
  · rw [phase_draw] at hq
    by_cases hqp : q = p
    · rw [if_pos hqp] at hq
      obtain rfl := Option.some.inj hq
      exact Nat.lt_succ_self w.inodes
    · rw [if_neg hqp] at hq
      exact Nat.lt_succ_of_lt (h.bound q inode hq)
  · rw [phase_draw] at hq
    by_cases hqp : q = p
    · rw [if_pos hqp] at hq
      obtain ⟨rfl, -, -⟩ := Phase.writing.inj hq
      refine ⟨fun hfile => Nat.lt_irrefl _ (h.file w.inodes hfile).1, fun r hr => ?_⟩
      rw [phase_draw, if_neg (hqp ▸ hr)]
      exact fun hsome => Nat.lt_irrefl _ (h.bound r w.inodes hsome)
    · rw [if_neg hqp] at hq
      refine ⟨(h.own q inode other left hq).1, fun r hr => ?_⟩
      rw [phase_draw]
      by_cases hrp : r = p
      · rw [if_pos hrp]
        intro hsome
        have hlt := h.bound q inode (congrArg Phase.inode hq)
        obtain rfl := Option.some.inj hsome
        exact Nat.lt_irrefl _ hlt
      · rw [if_neg hrp]
        exact (h.own q inode other left hq).2 r hr

theorem phase_write (w : World) (p q inode : ℕ) (token : String) (part left : List Char) :
    (w.write p inode token part left).phase q =
      if q = p then .writing inode token left else w.phase q :=
  phase_goto _ p q _

/-- What a worker writes, nobody else reads and nothing names. -/
theorem Sound.write {env : String} {w : World} (h : Sound env w) {p inode : ℕ} {token : String}
    {part left : List Char} (hp : w.phase p = .writing inode token (part ++ left)) :
    Sound env (w.write p inode token part left) := by
  obtain ⟨hfile, hothers⟩ := h.own p inode token (part ++ left) hp
  have hold {other : ℕ} (hne : other ≠ inode) :
      (w.write p inode token part left).content other = w.content other :=
    Function.update_of_ne hne _ _
  have hsent (q : ℕ) : ((w.write p inode token part left).workers q).sent = (w.workers q).sent :=
    sent_goto _ p q _
  refine ⟨fun other hother => ?_, fun q => ?_, fun q other hq => ?_, fun q other drawn more hq => ?_,
    h.claims⟩
  · obtain ⟨hlt, whole, hmem, hwhole, htext⟩ := h.file other hother
    have hne : other ≠ inode := fun heq => hfile (heq ▸ hother)
    exact ⟨hlt, whole, hmem, hwhole, (hold hne).trans htext⟩
  · rw [phase_write, hsent]
    by_cases hqp : q = p
    · have hself : (w.write p inode token part left).content inode = w.content inode ++ part :=
        Function.update_self _ _ _
      have hsound := h.phase p
      rw [hp] at hsound
      rw [if_pos hqp]
      exact ⟨hsound.1, by rw [hself, List.append_assoc, hsound.2]⟩
    · rw [if_neg hqp]
      have hcontent (other : ℕ) (hother : (w.phase q).inode = some other) :
          (w.write p inode token part left).content other = w.content other :=
        hold fun heq => hothers q hqp (heq ▸ hother)
      exact @PhaseSound.mono env w (w.write p inode token part left) _ _ (fun _ hmem => hmem) hcontent
        (h.phase q)
  · rw [phase_write] at hq
    by_cases hqp : q = p
    · rw [if_pos hqp] at hq
      obtain rfl := Option.some.inj hq
      exact h.bound p inode (congrArg Phase.inode hp)
    · rw [if_neg hqp] at hq
      exact h.bound q other hq
  · rw [phase_write] at hq
    by_cases hqp : q = p
    · rw [if_pos hqp] at hq
      obtain ⟨rfl, -, -⟩ := Phase.writing.inj hq
      refine ⟨hfile, fun r hr => ?_⟩
      rw [phase_write, if_neg (hqp ▸ hr)]
      exact hothers r (hqp ▸ hr)
    · rw [if_neg hqp] at hq
      have hown := h.own q other drawn more hq
      refine ⟨hown.1, fun r hr => ?_⟩
      rw [phase_write]
      by_cases hrp : r = p
      · have hphase : (w.phase r).inode = some inode := by
          rw [hrp]
          exact congrArg Phase.inode hp
        rw [if_pos hrp]
        exact fun hsome => hown.2 r hr (hphase.trans hsome)
      · rw [if_neg hrp]
        exact hown.2 r hr

theorem Sound.step {env : String} {w w' : World} {p : ℕ} {a : Act} (h : Sound env w)
    (hstep : Step env w p a w') : Sound env w' := by
  have hp := h.phase p
  cases hstep with
  | ensure sent hphase => exact h.begin p sent
  | openSome hphase hfile =>
    exact h.goto p (h.file _ hfile).2 (.inr (.inr hfile.symm)) (fun _ _ _ => Phase.noConfusion)
  | openNone | readBlank => exact h.goto p trivial (.inl rfl) fun _ _ _ => Phase.noConfusion
  | taken => exact h.goto p trivial (.inl rfl) fun _ _ _ => Phase.noConfusion
  | read hphase | reread hphase =>
    rw [hphase] at hp
    obtain ⟨token, hmem, hwhole⟩ := hp
    refine h.goto p (.inr (.inr ?_)) (.inl rfl) fun _ _ _ => Phase.noConfusion
    rw [World.text_whole hwhole]
    exact ⟨hwhole.1, hmem⟩
  | draw hphase htoken => exact h.draw p htoken
  | @write inode token left count hphase =>
    exact h.write (by rw [List.take_append_drop]; exact hphase)
  | close hphase =>
    rw [hphase] at hp
    obtain ⟨htoken, htext⟩ := hp
    rw [List.append_nil] at htext
    refine h.goto p ⟨htoken, htext⟩ (.inr (.inl ?_)) fun _ _ _ => Phase.noConfusion
    rw [hphase]
    rfl
  | @link inode token hphase hfile =>
    have hwhole := hp
    rw [hphase] at hwhole
    have hlinked : ∀ other ∈ w.linked, other ∈ token :: w.linked := fun _ => List.mem_cons_of_mem token
    refine h.move p _ (some inode) _ w.claims hlinked (fun other hother => ?_)
      (.inr (.inr ⟨hwhole.1, List.mem_cons_self⟩)) (fun _ hsome => by cases hsome)
      (fun _ _ _ => Phase.noConfusion)
      fun sent hsent => (h.claims sent hsent).imp id fun hmem => ⟨hmem.1, hlinked _ hmem.2⟩
    obtain rfl := Option.some.inj hother
    have hinode : (w.phase p).inode = some inode := congrArg Phase.inode hphase
    refine ⟨h.bound p inode hinode, ⟨token, List.mem_cons_self, hwhole⟩, fun q drawn left hq => ?_⟩
    by_cases hqp : q = p
    · rw [hqp, hphase] at hq
      cases hq
    · exact (h.own q inode drawn left hq).2 p (Ne.symm hqp) hinode
  | reopenSome hphase hfile =>
    exact h.goto p (h.file _ hfile).2 (.inr (.inr hfile.symm)) (fun _ _ _ => Phase.noConfusion)
  | reopenNone => exact h.goto p (.inl rfl) (.inl rfl) fun _ _ _ => Phase.noConfusion
  | refuse | fail | leave => exact h.goto p trivial (.inl rfl) fun _ _ _ => Phase.noConfusion
  | accept hphase hne =>
    rw [hphase] at hp
    exact h.goto p (hp.resolve_left hne) (.inl rfl) fun _ _ _ => Phase.noConfusion
  | claim hphase =>
    rw [hphase] at hp
    exact h.move p .claimed w.file w.linked _ (fun _ hmem => hmem) (fun inode hfile => h.named hfile) hp
      (fun _ hsome => by cases hsome) (fun _ _ _ => Phase.noConfusion)
      (List.forall_mem_cons.mpr ⟨hp, h.claims⟩)
  | mark hphase =>
    rw [hphase] at hp
    exact h.goto p hp (.inl rfl) fun _ _ _ => Phase.noConfusion
  | discard hphase =>
    refine h.move p .idle _ w.linked w.claims (fun _ hmem => hmem) (fun inode hfile => ?_) trivial
      (fun _ hsome => by cases hsome) (fun _ _ _ => Phase.noConfusion) h.claims
    have hfile : w.file = some inode := by
      split at hfile
      · exact hfile
      · cases hfile
    exact h.named hfile

theorem Sound.unlink {env : String} {w : World} (h : Sound env w) : Sound env { w with file := none } :=
  ⟨fun _ hfile => (nomatch hfile), h.phase, h.bound,
    fun p inode token left hp => ⟨fun hfile => (nomatch hfile), (h.own p inode token left hp).2⟩,
    h.claims⟩

theorem sound_fresh (env : String) : Sound env fresh :=
  ⟨fun _ hfile => (nomatch hfile), fun _ => trivial, fun _ _ hsome => (nomatch hsome),
    fun _ _ _ _ hp => (nomatch hp), List.forall_mem_nil _⟩

/-- Every state of a run of a new instance is sound. -/
theorem sound_run {env : String} {w : World} {ls : List Label}
    (hrun : (system env).exec fresh ls = some w) : Sound env w := by
  refine (system env).always_exec ((system env).always_of_step ?_ ls (sound_fresh env)) hrun
  intro w l w' h hstep
  cases l with
  | act p a => exact h.step (act_step hstep)
  | unlink =>
    obtain rfl := Option.some.inj hstep
    exact h.unlink

/-- **Only the token creates the first administrator.** -/
theorem claims_genuine {env : String} {w : World} {ls : List Label}
    (hrun : (system env).exec fresh ls = some w) :
    ∀ sent ∈ w.claims, Genuine env w.linked (Python.strip sent) := (sound_run hrun).claims

/-! ### While nobody deletes the file -/

theorem Step.phase_other {env : String} {w w' : World} {p q : ℕ} {a : Act} (hstep : Step env w p a w')
    (hq : q ≠ p) : w'.phase q = w.phase q := by
  cases hstep with
  | ensure => exact (phase_begin env w p q _).trans (if_neg hq)
  | draw => exact (phase_draw w p q _).trans (if_neg hq)
  | write => exact (phase_write w p q _ _ _ _).trans (if_neg hq)
  | link | claim | discard => exact (phase_goto _ p q _).trans (if_neg hq)
  | _ => exact (phase_goto w p q _).trans (if_neg hq)

theorem Step.file_kept {env : String} {w w' : World} {p inode : ℕ} {a : Act} (hstep : Step env w p a w')
    (hkept : a ≠ .discard) (hfile : w.file = some inode) : w'.file = some inode := by
  cases hstep with
  | link hphase hnone => exact absurd (hfile.symm.trans hnone) (Option.some_ne_none inode)
  | discard => exact absurd rfl hkept
  | _ => exact hfile

/-- The file that has the name is never written. -/
theorem Step.content_kept {env : String} {w w' : World} {p inode : ℕ} {a : Act} (h : Sound env w)
    (hstep : Step env w p a w') (hfile : w.file = some inode) : w'.content inode = w.content inode := by
  cases hstep with
  | draw => exact Function.update_of_ne (Nat.ne_of_lt (h.file inode hfile).1) _ _
  | @write other token left count hphase =>
    have hne : inode ≠ other := by
      rintro rfl
      exact (h.own p inode token left hphase).1 hfile
    exact Function.update_of_ne hne _ _
  | _ => rfl

/-- The name has the token's file. -/
def World.Holds (w : World) (token : String) : Prop :=
  ∃ inode, w.file = some inode ∧ w.Whole token inode

theorem Step.holds {env : String} {w w' : World} {p : ℕ} {a : Act} (h : Sound env w)
    (hstep : Step env w p a w') (hkept : a ≠ .discard) {token : String} (hholds : w.Holds token) :
    w'.Holds token := by
  obtain ⟨inode, hfile, htoken, htext⟩ := hholds
  exact ⟨inode, hstep.file_kept hkept hfile, htoken, (hstep.content_kept h hfile).trans htext⟩

/-- The token that every worker of this instance is answered. -/
def World.Expects (env : String) (w : World) (token : String) : Prop :=
  env ≠ "" ∧ token = env ∨ env = "" ∧ w.Holds token

theorem Step.expects {env : String} {w w' : World} {p : ℕ} {a : Act} (h : Sound env w)
    (hstep : Step env w p a w') (hkept : a ≠ .discard) {token : String}
    (hexpects : w.Expects env token) : w'.Expects env token :=
  hexpects.imp id fun hfile => ⟨hfile.1, hstep.holds h hkept hfile.2⟩

theorem World.Expects.unique {env : String} {w : World} {token other : String}
    (htoken : w.Expects env token) (hother : w.Expects env other) : token = other := by
  rcases htoken with ⟨henv, rfl⟩ | ⟨henv, inode, hfile, -, htext⟩
  · rcases hother with ⟨-, rfl⟩ | ⟨hempty, -⟩
    · rfl
    · exact absurd hempty henv
  · rcases hother with ⟨hne, -⟩ | ⟨-, inode', hfile', -, htext'⟩
    · exact absurd henv hne
    · obtain rfl := Option.some.inj (hfile.symm.trans hfile')
      exact String.toList_injective (List.append_cancel_right (htext.symm.trans htext'))

/-- A worker that has come this far while nobody deleted the file. -/
def Settled (env : String) (w : World) : Phase → Prop
  | .looking | .absent | .writing _ _ _ | .linking _ _ => env = ""
  | .reading inode | .rereading inode => env = "" ∧ w.file = some inode
  | .lost => env = "" ∧ w.file ≠ none
  | .answered (some token) => w.Expects env token
  | _ => True

theorem Settled.mono {env : String} {w w' : World} {phase : Phase}
    (hfile : ∀ inode, w.file = some inode → w'.file = some inode)
    (hholds : ∀ token, w.Holds token → w'.Holds token) (h : Settled env w phase) :
    Settled env w' phase := by
  cases phase with
  | reading inode | rereading inode => exact ⟨h.1, hfile inode h.2⟩
  | lost =>
    obtain ⟨inode, hsome⟩ := Option.ne_none_iff_exists'.mp h.2
    exact ⟨h.1, fun hnone => Option.some_ne_none inode ((hfile inode hsome).symm.trans hnone)⟩
  | answered expected =>
    cases expected with
    | none => trivial
    | some token => exact h.imp id fun h => ⟨h.1, hholds token h.2⟩
  | _ => exact h

/-- What one step does to the worker that takes it. -/
theorem Settled.own {env : String} {w w' : World} {p : ℕ} {a : Act} (hsound : Sound env w)
    (hstep : Step env w p a w') (hkept : a ≠ .discard) (h : Settled env w (w.phase p)) :
    Settled env w' (w'.phase p) := by
  cases hstep with
  | ensure sent hphase =>
    rw [phase_begin, if_pos rfl]
    split
    next henv => exact .inl ⟨henv, rfl⟩
    next henv => exact not_not.mp henv
  | openSome hphase hfile =>
    rw [hphase] at h
    rw [phase_goto, if_pos rfl]
    exact ⟨h, hfile⟩
  | openNone hphase hnone =>
    rw [hphase] at h
    rw [phase_goto, if_pos rfl]
    exact h
  | readBlank hphase hblank =>
    rw [hphase] at h
    rw [phase_goto, if_pos rfl]
    exact h.1
  | read hphase | reread hphase =>
    have hp := hsound.phase p
    rw [hphase] at h hp
    obtain ⟨token, -, hwhole⟩ := hp
    rw [phase_goto, if_pos rfl, World.text_whole hwhole]
    exact .inr ⟨h.1, _, h.2, hwhole⟩
  | draw hphase htoken =>
    rw [hphase] at h
    rw [phase_draw, if_pos rfl]
    exact h
  | write count hphase =>
    rw [hphase] at h
    rw [phase_write, if_pos rfl]
    exact h
  | close hphase =>
    rw [hphase] at h
    rw [phase_goto, if_pos rfl]
    exact h
  | taken hphase hfile =>
    rw [hphase] at h
    rw [phase_goto, if_pos rfl]
    exact ⟨h, fun hnone => Option.some_ne_none _ (hfile.symm.trans hnone)⟩
  | link hphase hnone =>
    have hp := hsound.phase p
    rw [hphase] at h hp
    rw [phase_goto, if_pos rfl]
    exact .inr ⟨h, _, rfl, hp⟩
  | reopenSome hphase hfile =>
    rw [hphase] at h
    rw [phase_goto, if_pos rfl]
    exact ⟨h.1, hfile⟩
  | reopenNone hphase hnone =>
    rw [hphase] at h
    exact absurd hnone h.2
  | discard => exact absurd rfl hkept
  | _ =>
    rw [phase_goto, if_pos rfl]
    trivial

theorem Settled.step {env : String} {w w' : World} {p q : ℕ} {a : Act} (hsound : Sound env w)
    (hstep : Step env w p a w') (hkept : a ≠ .discard) (h : Settled env w (w.phase q)) :
    Settled env w' (w'.phase q) := by
  by_cases hqp : q = p
  · rw [hqp] at h ⊢
    exact h.own hsound hstep hkept
  · rw [hstep.phase_other hqp]
    exact h.mono (fun _ hfile => hstep.file_kept hkept hfile) fun _ hholds =>
      hstep.holds hsound hkept hholds

/-- Nobody deletes the file: no `discard`, and nothing by hand. -/
def Keeps : Label → Bool
  | .act _ .discard | .unlink => false
  | _ => true

/-- What the steps keep while nobody deletes the file. -/
theorem kept_run {env : String} {w w' : World} {ms : List Label} {I : World → Prop}
    (hstep : ∀ w p a w', Sound env w → Step env w p a w' → a ≠ .discard → I w → I w')
    (hsound : Sound env w) (hkeeps : ∀ l ∈ ms, Keeps l = true)
    (hrun : (system env).exec w ms = some w') (h : I w) : Sound env w' ∧ I w' := by
  refine (system env).always_exec ((system env).always_of_along (I := fun w => Sound env w ∧ I w)
    (G := fun _ l => Keeps l = true) ?_ ⟨hsound, h⟩ ((system env).along_of_forall fun _ => hkeeps)) hrun
  rintro w l w' ⟨hsound, h⟩ hkeep hact
  cases l with
  | unlink => cases hkeep
  | act p a =>
    have hkept : a ≠ .discard := by
      rintro rfl
      cases hkeep
    exact ⟨hsound.step (act_step hact), hstep w p a w' hsound (act_step hact) hkept h⟩

/-- **However many workers race, and whenever they ask, they expect one token.** -/
theorem ensure_agrees {env : String} {w w₁ w₂ : World} {ls ms ns : List Label}
    (hreach : (system env).exec fresh ls = some w) (hfirst : (system env).exec w ms = some w₁)
    (hthen : (system env).exec w₁ ns = some w₂) (hkeeps : ∀ l ∈ ms ++ ns, Keeps l = true) {p q : ℕ}
    (hp : w.phase p = .idle) (hq : w.phase q = .idle) {token other : String}
    (htoken : w₁.phase p = .answered (some token)) (hother : w₂.phase q = .answered (some other)) :
    token = other ∧ w₂.Expects env token := by
  have hms : ∀ l ∈ ms, Keeps l = true := fun l hl => hkeeps l (List.mem_append_left ns hl)
  have hns : ∀ l ∈ ns, Keeps l = true := fun l hl => hkeeps l (List.mem_append_right ms hl)
  have hsettled (r : ℕ) (hr : w.phase r = .idle) : Settled env w (w.phase r) := by
    rw [hr]
    trivial
  have hsteps (r : ℕ) (w w' : World) (hsound : Sound env w) (s : ℕ) (a : Act)
      (hstep : Step env w s a w') (hkept : a ≠ .discard) (h : Settled env w (w.phase r)) :
      Settled env w' (w'.phase r) := h.step hsound hstep hkept
  obtain ⟨hsound, hanswer⟩ := kept_run (I := fun w => Settled env w (w.phase p))
    (fun w s a w' hsound => hsteps p w w' hsound s a) (sound_run hreach) hms hfirst (hsettled p hp)
  obtain ⟨-, hlater⟩ := kept_run (I := fun w => Settled env w (w.phase q))
    (fun w s a w' hsound => hsteps q w w' hsound s a) (sound_run hreach) hkeeps
    (((system env).exec_append_of_some hfirst ns).trans hthen) (hsettled q hq)
  rw [htoken] at hanswer
  rw [hother] at hlater
  have hexpects : w₂.Expects env token := (kept_run (I := fun w => w.Expects env token)
    (fun w s a w' hsound hstep hkept h => hstep.expects hsound hkept h) hsound hns hthen hanswer).2
  exact ⟨hexpects.unique hlater, hexpects⟩

def sampleTokens : String × String :=
  ("q1GvXr0bTz8mKc4UeYw2Hs6NdLp9-a_J", "Zf5oB7tQ3uVn1IyEhWk0RxCj8PgMs2_D")

/-- Two workers find no file; the second gives it its name, and the first reads it. -/
def sampleRace : List Label :=
  [.act 0 (.ensure none), .act 1 (.ensure (some (" " ++ sampleTokens.2))), .act 0 .openFile,
    .act 1 .openFile, .act 0 (.draw sampleTokens.1), .act 1 (.draw sampleTokens.2), .act 1 (.write 30),
    .act 0 (.write 33), .act 1 (.write 3), .act 1 .close, .act 0 .close, .act 1 .link, .act 0 .link]

def sampleWorld : World := ((system "").exec fresh sampleRace).getD fresh

def sampleEnd : List Label := [.act 0 .openFile, .act 0 .read, .act 1 .compare, .act 1 .claim]

theorem sampleRace_agrees : sampleTokens.2 = sampleTokens.2 ∧
    (((system "").exec sampleWorld sampleEnd).getD fresh).Expects "" sampleTokens.2 :=
  @ensure_agrees "" fresh sampleWorld _ [] sampleRace sampleEnd rfl rfl rfl (by decide) 1 0 rfl rfl
    _ _ rfl rfl

theorem sampleClaim_genuine : Genuine "" [sampleTokens.2] (Python.strip (" " ++ sampleTokens.2)) :=
  @claims_genuine "" (((system "").exec fresh (sampleRace ++ sampleEnd)).getD fresh)
    (sampleRace ++ sampleEnd) rfl _ List.mem_cons_self

end SetupToken
