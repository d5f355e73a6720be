import Mathlib.Data.List.Infix

/-!
# Programs that ask their environment

A program puts one question at a time and goes on with whatever it is answered. Nothing is assumed of
the answers, and a run may end before any question.
-/

namespace Machine

inductive Dialogue (Q A E : Type) (α : Type) where
  | pure (a : α)
  | raise (e : E)
  | ask (q : Q) (k : A → Dialogue Q A E α)

namespace Dialogue
variable {Q A E α β : Type}

protected def bind : Dialogue Q A E α → (α → Dialogue Q A E β) → Dialogue Q A E β
  | .pure a, f => f a
  | .raise e, _ => .raise e
  | .ask q k, f => .ask q fun a => (k a).bind f

instance : Monad (Dialogue Q A E) where
  pure := .pure
  bind := Dialogue.bind

/-- `try: … except`. -/
def handle : Dialogue Q A E α → (E → Dialogue Q A E α) → Dialogue Q A E α
  | .pure a, _ => .pure a
  | .raise e, f => f e
  | .ask q k, f => .ask q fun a => (k a).handle f

/-- The questions with their answers, until the program ends or the answers do. -/
def log : Dialogue Q A E α → List A → List (Q × A)
  | .ask q k, a :: answers => (q, a) :: (k a).log answers
  | .ask _ _, [] => []
  | .pure _, _ => []
  | .raise _, _ => []

/-- Every question is allowed where it is put, and the end satisfies `ok` or `error`. -/
def wp (allowed : List (Q × A) → Q → Prop) : Dialogue Q A E α →
    (α → List (Q × A) → Prop) → (E → List (Q × A) → Prop) → List (Q × A) → Prop
  | .pure a, ok, _, l => ok a l
  | .raise e, _, error, l => error e l
  | .ask q k, ok, error, l => allowed l q ∧ ∀ a, (k a).wp allowed ok error (l ++ [(q, a)])

variable {allowed : List (Q × A) → Q → Prop} {ok ok' : α → List (Q × A) → Prop}
  {error error' : E → List (Q × A) → Prop} {l : List (Q × A)}

theorem wp_mono {x : Dialogue Q A E α} (h : x.wp allowed ok error l)
    (hok : ∀ a l', ok a l' → ok' a l') (herror : ∀ e l', error e l' → error' e l') :
    x.wp allowed ok' error' l := by
  induction x generalizing l with
  | pure a => exact hok a l h
  | raise e => exact herror e l h
  | ask q k ih => exact ⟨h.1, fun a => ih a (h.2 a)⟩

theorem wp_bind {x : Dialogue Q A E α} {f : α → Dialogue Q A E β} {ok : β → List (Q × A) → Prop}
    (h : x.wp allowed (fun a l' => (f a).wp allowed ok error l') error l) :
    (x >>= f).wp allowed ok error l := by
  show (x.bind f).wp allowed ok error l
  induction x generalizing l with
  | pure a => exact h
  | raise e => exact h
  | ask q k ih => exact ⟨h.1, fun a => ih a (h.2 a)⟩

theorem wp_handle {x : Dialogue Q A E α} {f : E → Dialogue Q A E α}
    (h : x.wp allowed ok (fun e l' => (f e).wp allowed ok error l') l) :
    (x.handle f).wp allowed ok error l := by
  induction x generalizing l with
  | pure a => exact h
  | raise e => exact h
  | ask q k ih => exact ⟨h.1, fun a => ih a (h.2 a)⟩

/-- Whatever the answers are, a question that was put was allowed there. -/
theorem allowed_of_wp {x : Dialogue Q A E α} (h : x.wp allowed ok error l) {answers : List A}
    {front back : List (Q × A)} {q : Q} {a : A} (hlog : x.log answers = front ++ (q, a) :: back) :
    allowed (l ++ front) q := by
  induction x generalizing l answers front with
  | pure b => exact absurd hlog (by simp [log])
  | raise e => exact absurd hlog (by simp [log])
  | ask q' k ih =>
    cases answers with
    | nil => exact absurd hlog (by simp [log])
    | cons b answers =>
      rw [log] at hlog
      cases front with
      | nil =>
        obtain ⟨hfirst, -⟩ := List.cons.inj hlog
        obtain ⟨rfl, -⟩ := Prod.mk.inj hfirst
        rw [List.append_nil]
        exact h.1
      | cons event front =>
        obtain ⟨rfl, hrest⟩ := List.cons.inj hlog
        have hlater := ih b (h.2 b) hrest
        rwa [List.append_assoc, List.singleton_append] at hlater

/-! ### Questions of one kind -/

/-- Only questions of this kind are put. -/
def Asks (kind : Q → Prop) : Dialogue Q A E α → Prop
  | .pure _ => True
  | .raise _ => True
  | .ask q k => kind q ∧ ∀ a, (k a).Asks kind

/-- Its result, when there is one, satisfies this. -/
def Returns (good : α → Prop) : Dialogue Q A E α → Prop
  | .pure a => good a
  | .raise _ => True
  | .ask _ k => ∀ a, (k a).Returns good

variable {kind : Q → Prop}

theorem Returns.bind {good : β → Prop} {x : Dialogue Q A E α} {f : α → Dialogue Q A E β}
    (hf : ∀ a, (f a).Returns good) : (x >>= f).Returns good := by
  show (x.bind f).Returns good
  induction x with
  | pure a => exact hf a
  | raise e => trivial
  | ask q k ih => exact ih

theorem Asks.pure (a : α) : Asks kind (Pure.pure a : Dialogue Q A E α) := trivial

theorem Asks.bind {x : Dialogue Q A E α} {f : α → Dialogue Q A E β} (hx : x.Asks kind)
    (hf : ∀ a, (f a).Asks kind) : (x >>= f).Asks kind := by
  show (x.bind f).Asks kind
  induction x with
  | pure a => exact hf a
  | raise e => trivial
  | ask q k ih => exact ⟨hx.1, fun a => ih a (hx.2 a)⟩

theorem Asks.bind_returns {good : α → Prop} {x : Dialogue Q A E α} {f : α → Dialogue Q A E β}
    (hx : x.Asks kind) (hgood : x.Returns good) (hf : ∀ a, good a → (f a).Asks kind) :
    (x >>= f).Asks kind := by
  show (x.bind f).Asks kind
  induction x with
  | pure a => exact hf a hgood
  | raise e => trivial
  | ask q k ih => exact ⟨hx.1, fun a => ih a (hx.2 a) (hgood a)⟩

theorem Asks.handle {x : Dialogue Q A E α} {f : E → Dialogue Q A E α} (hx : x.Asks kind)
    (hf : ∀ e, (f e).Asks kind) : (x.handle f).Asks kind := by
  induction x with
  | pure a => trivial
  | raise e => exact hf e
  | ask q k ih => exact ⟨hx.1, fun a => ih a (hx.2 a)⟩

theorem Asks.mono {kind' : Q → Prop} {x : Dialogue Q A E α} (hx : x.Asks kind)
    (h : ∀ q, kind q → kind' q) : x.Asks kind' := by
  induction x with
  | pure a => trivial
  | raise e => trivial
  | ask q k ih => exact ⟨h q hx.1, fun a => ih a (hx.2 a)⟩

/-- What questions of a kind keep, and what allows them, lets a program run that puts no others. -/
theorem Asks.wp {inv : List (Q × A) → Prop} {x : Dialogue Q A E α} (hx : x.Asks kind)
    (hinv : ∀ l q a, inv l → kind q → inv (l ++ [(q, a)]))
    (hallowed : ∀ l q, inv l → kind q → allowed l q) (hl : inv l) :
    x.wp allowed (fun _ l' => inv l') (fun _ l' => inv l') l := by
  induction x generalizing l with
  | pure a => exact hl
  | raise e => exact hl
  | ask q k ih => exact ⟨hallowed l q hl hx.1, fun a => ih a (hx.2 a) (hinv l q a hl hx.1)⟩

end Dialogue
end Machine
