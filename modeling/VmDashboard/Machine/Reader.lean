import Mathlib.Data.List.Basic
import Mathlib.Data.Nat.Notation

/-!
# Items taken off the front of a buffer

A reader takes the first item of a buffer where all of it is there. What one call leaves is the
beginning of the next buffer. A reader is stable where more letters change nothing about an item that
is whole: then the items do not depend on where the text was cut.
-/

namespace Machine

structure Reader (A B : Type*) where
  next : List A → Option (B × List A)
  shorter : ∀ buf b rest, next buf = some (b, rest) → rest.length < buf.length

namespace Reader
variable {A B : Type*} (R : Reader A B)

def take : ℕ → List A → List B × List A
  | 0, buf => ([], buf)
  | fuel + 1, buf =>
    match R.next buf with
    | none => ([], buf)
    | some (b, rest) => (b :: (take fuel rest).1, (take fuel rest).2)

/-- Every item that is whole, and what is left. -/
def drain (buf : List A) : List B × List A := R.take buf.length buf

def Stable : Prop :=
  ∀ buf b rest more, R.next buf = some (b, rest) → R.next (buf ++ more) = some (b, rest ++ more)

variable {R} {buf rest : List A} {b : B}

theorem next_nil : R.next [] = none := by
  cases h : R.next [] with
  | none => rfl
  | some item => exact absurd (R.shorter [] item.1 item.2 h) (Nat.not_lt_zero _)

/-- A letter of fuel for each letter of the buffer is enough. -/
theorem take_eq {fuel fuel' : ℕ} (h : buf.length ≤ fuel) (h' : buf.length ≤ fuel') :
    R.take fuel buf = R.take fuel' buf := by
  induction fuel generalizing fuel' buf with
  | zero =>
    obtain rfl := List.length_eq_zero_iff.mp (Nat.le_zero.mp h)
    cases fuel' with
    | zero => rfl
    | succ fuel' =>
      rw [take, take, next_nil]
  | succ fuel ih =>
    cases fuel' with
    | zero =>
      obtain rfl := List.length_eq_zero_iff.mp (Nat.le_zero.mp h')
      rw [take, take, next_nil]
    | succ fuel' =>
      rw [take, take]
      cases hnext : R.next buf with
      | none => rfl
      | some item =>
        have hshort := R.shorter buf item.1 item.2 hnext
        have hrest : R.take fuel item.2 = R.take fuel' item.2 := ih (by omega) (by omega)
        show (item.1 :: (R.take fuel item.2).1, (R.take fuel item.2).2) = _
        rw [hrest]

theorem drain_none (h : R.next buf = none) : R.drain buf = ([], buf) := by
  unfold drain
  cases hlength : buf.length with
  | zero => rw [take]
  | succ n => rw [take, h]

theorem drain_some (h : R.next buf = some (b, rest)) :
    R.drain buf = (b :: (R.drain rest).1, (R.drain rest).2) := by
  have hshort := R.shorter buf b rest h
  have hbuf : R.drain buf = R.take (buf.length - 1 + 1) buf :=
    take_eq (Nat.le_refl _) (by omega)
  have hrest : R.drain rest = R.take (buf.length - 1) rest := take_eq (Nat.le_refl _) (by omega)
  rw [hbuf, take, h, hrest]

/-- Where a claim about a buffer and what it is drained to follows from the same claim about what is
left after one item, it holds. -/
theorem drain_induction {motive : List A → Prop} (stop : ∀ buf, R.next buf = none → motive buf)
    (step : ∀ buf b rest, R.next buf = some (b, rest) → motive rest → motive buf) (buf : List A) :
    motive buf := by
  induction hn : buf.length using Nat.strongRecOn generalizing buf with
  | ind n ih =>
    subst hn
    cases hnext : R.next buf with
    | none => exact stop buf hnext
    | some item =>
      exact step buf item.1 item.2 hnext (ih _ (R.shorter buf item.1 item.2 hnext) item.2 rfl)

theorem next_drain (buf : List A) : R.next (R.drain buf).2 = none := by
  refine drain_induction (R := R) (motive := fun buf => R.next (R.drain buf).2 = none) ?_ ?_ buf
  · intro buf h
    rw [drain_none h]
    exact h
  · intro buf b rest h ih
    rw [drain_some h]
    exact ih

theorem drain_append (hstable : R.Stable) (buf more : List A) :
    R.drain (buf ++ more) =
      ((R.drain buf).1 ++ (R.drain ((R.drain buf).2 ++ more)).1, (R.drain ((R.drain buf).2 ++ more)).2) := by
  refine drain_induction (R := R)
    (motive := fun buf => R.drain (buf ++ more) =
      ((R.drain buf).1 ++ (R.drain ((R.drain buf).2 ++ more)).1,
        (R.drain ((R.drain buf).2 ++ more)).2)) ?_ ?_ buf
  · intro buf h
    rw [drain_none h]
    rfl
  · intro buf b rest h ih
    rw [drain_some (hstable buf b rest more h), drain_some h, ih]
    rfl

/-- One read after another: the items of each, and what is left at the end. -/
def feed (R : Reader A B) : List A → List (List A) → List B × List A
  | buf, [] => ([], buf)
  | buf, chunk :: chunks =>
    ((R.drain (buf ++ chunk)).1 ++ (feed R (R.drain (buf ++ chunk)).2 chunks).1,
      (feed R (R.drain (buf ++ chunk)).2 chunks).2)

/-- However the text is cut, the items are those of the whole. -/
theorem feed_eq (hstable : R.Stable) (hbuf : R.next buf = none) (chunks : List (List A)) :
    R.feed buf chunks = R.drain (buf ++ chunks.flatten) := by
  induction chunks generalizing buf with
  | nil => rw [feed, List.flatten_nil, List.append_nil, drain_none hbuf]
  | cons chunk chunks ih =>
    have hall := drain_append hstable (buf ++ chunk) chunks.flatten
    rw [List.append_assoc] at hall
    rw [feed, List.flatten_cons, hall, ih (next_drain (buf ++ chunk))]

/-- What is read off one item after the other is read off the whole. -/
theorem drain_items (hstable : R.Stable) {encode : B → List A → Prop}
    (hnext : ∀ b text, encode b text → R.next text = some (b, [])) {bs : List B} {texts : List (List A)}
    (h : List.Forall₂ encode bs texts) {tail : List A} (htail : R.next tail = none) :
    R.drain (texts.flatten ++ tail) = (bs, tail) := by
  induction h with
  | nil => exact drain_none htail
  | @cons b text bs texts hb _ ih =>
    have hfirst := hstable text b [] (texts.flatten ++ tail) (hnext b text hb)
    rw [List.flatten_cons, List.append_assoc, drain_some hfirst, List.nil_append, ih]

end Reader
end Machine
