import Mathlib.Data.List.Basic

/-!
# Tagged, length-prefixed records

A record is a tag, the number of its content octets in the short or the long form, and the content.
The reader takes one record out of a buffer at a position, and refuses what is not complete.
-/

namespace Ber

/-! ### The records -/

/-- `int.from_bytes(octets, "big")`. -/
def value (octets : List UInt8) : ℕ := octets.foldl (fun n octet => n * 256 + octet.toNat) 0

/-- The octets that say a length: one, or a count of at most `limit` and as many octets. -/
inductive Length (limit n : ℕ) : List UInt8 → Prop where
  | short (octet : UInt8) : octet.toNat = n → n < 128 → Length limit n [octet]
  | long (first : UInt8) (octets : List UInt8) : first.toNat = 128 + octets.length →
      octets ≠ [] → octets.length ≤ limit → value octets = n → Length limit n (first :: octets)

/-- A record whose length takes at most `limit` octets in the long form. -/
inductive Record (limit : ℕ) (tag : UInt8) (content : List UInt8) : List UInt8 → Prop where
  | mk (octets : List UInt8) : Length limit content.length octets →
      Record limit tag content (tag :: octets ++ content)

/-! ### The reader -/

/-- The octets from `i` up to `j`. -/
def slice (buf : List UInt8) (i j : ℕ) : List UInt8 := (buf.take j).drop i

/-- `_ber_read`: the tag, the content and the next position, or the text of a `ValueError`. -/
def berRead (buf : List UInt8) (pos : ℕ) : Except String (UInt8 × List UInt8 × ℕ) :=
  if pos + 2 > buf.length then .error "short"
  else
    let tag := buf.getD pos 0
    let first := (buf.getD (pos + 1) 0).toNat
    let pos := pos + 2
    -- bit 7 of the first octet, and the seven below it
    if 128 ≤ first then
      let n := first % 128
      if n = 0 ∨ n > 4 ∨ pos + n > buf.length then .error "bad length"
      else
        let length := value (slice buf pos (pos + n))
        let pos := pos + n
        if pos + length > buf.length then .error "short"
        else .ok (tag, slice buf pos (pos + length), pos + length)
    else if pos + first > buf.length then .error "short"
    else .ok (tag, slice buf pos (pos + first), pos + first)

/-! ### One record -/

theorem slice_cons_cons (a b : UInt8) (buf : List UInt8) (i j : ℕ) :
    slice (a :: b :: buf) (2 + i) (2 + j) = (buf.take j).drop i := by
  unfold slice
  rw [Nat.add_comm 2 i, Nat.add_comm 2 j]
  rfl

/-- The reader at the start of a buffer. -/
theorem berRead_cons (tag first : UInt8) (buf : List UInt8) : berRead (tag :: first :: buf) 0 =
    if 128 ≤ first.toNat then
      if first.toNat % 128 = 0 ∨ first.toNat % 128 > 4 ∨ first.toNat % 128 > buf.length then
        .error "bad length"
      else if first.toNat % 128 + value (buf.take (first.toNat % 128)) > buf.length then .error "short"
      else
        .ok (tag, (buf.drop (first.toNat % 128)).take (value (buf.take (first.toNat % 128))),
          2 + first.toNat % 128 + value (buf.take (first.toNat % 128)))
    else if first.toNat > buf.length then .error "short"
    else .ok (tag, buf.take first.toNat, 2 + first.toNat) := by
  have hlength : (tag :: first :: buf).length = 2 + buf.length := by
    rw [List.length_cons, List.length_cons]
    omega
  have hhead : (tag :: first :: buf).getD 0 0 = tag := rfl
  have hsecond : (tag :: first :: buf).getD (0 + 1) 0 = first := rfl
  have hplain (j : ℕ) : slice (tag :: first :: buf) 2 (2 + j) = buf.take j :=
    slice_cons_cons tag first buf 0 j
  have hlong (i j : ℕ) : slice (tag :: first :: buf) (2 + i) (2 + i + j) = (buf.drop i).take j := by
    rw [Nat.add_assoc, slice_cons_cons, List.drop_take, Nat.add_sub_cancel_left]
  unfold berRead
  rw [hhead, hsecond, hlength, if_neg (by omega)]
  dsimp only
  rw [Nat.zero_add, hplain, hplain, hlong]
  simp only [Nat.add_assoc, Nat.add_lt_add_iff_left, gt_iff_lt]

/-- A read moves on, and stays within the buffer. -/
theorem berRead_next {buf content : List UInt8} {next : ℕ} {tag : UInt8}
    (h : berRead buf 0 = .ok (tag, content, next)) : 2 ≤ next ∧ next ≤ buf.length := by
  match buf with
  | [] => cases h
  | [_] => cases h
  | a :: b :: buf =>
    rw [berRead_cons] at h
    rw [List.length_cons, List.length_cons]
    split at h
    · split at h
      · cases h
      split at h
      · cases h
      · cases h
        omega
    · split at h
      · cases h
      · cases h
        omega

/-- A read starts where the position says. -/
theorem berRead_shift (front buf : List UInt8) : berRead (front ++ buf) front.length =
    (berRead buf 0).map fun (tag, content, next) => (tag, content, front.length + next) := by
  have hget (i : ℕ) : (front ++ buf).getD (front.length + i) 0 = buf.getD i 0 := by
    rw [List.getD_eq_getElem?_getD, List.getD_eq_getElem?_getD,
      List.getElem?_append_right (Nat.le_add_right _ _), Nat.add_sub_cancel_left]
  have hslice (i j : ℕ) : slice (front ++ buf) (front.length + i) (front.length + j) = slice buf i j := by
    unfold slice
    rw [List.take_length_add_append, List.drop_length_add_append]
  have hstart := hget 0
  rw [Nat.add_zero] at hstart
  unfold berRead
  simp only [hstart, hget, List.length_append, Nat.add_assoc, Nat.add_lt_add_iff_left, gt_iff_lt, hslice,
    Nat.zero_add]
  split_ifs <;> rfl

/-- A complete record is read, whatever comes after it. -/
theorem berRead_record {tag : UInt8} {content record : List UInt8} (h : Record 4 tag content record)
    (rest : List UInt8) : berRead (record ++ rest) 0 = .ok (tag, content, record.length) := by
  obtain ⟨octets, hlength⟩ := h
  cases hlength with
  | short octet hoctet hsmall =>
    rw [List.cons_append, List.cons_append, List.singleton_append, List.cons_append, berRead_cons,
      if_neg (by omega), hoctet, List.length_append, if_neg (by omega), List.take_left]
    simp only [List.length_cons]
    congr 3
    omega
  | long first octets hfirst hne hlimit hvalue =>
    have hpos := List.length_pos_iff.mpr hne
    have hmod : first.toNat % 128 = octets.length := by omega
    rw [List.cons_append, List.cons_append, List.append_assoc, List.cons_append, List.cons_append,
      berRead_cons, if_pos (by omega), hmod, List.take_left, hvalue, List.drop_left, List.take_left,
      List.length_append, List.length_append, if_neg (by omega), if_neg (by omega)]
    simp only [List.length_cons, List.length_append]
    congr 3
    omega

/-- No part of a record is read. -/
theorem berRead_part {limit : ℕ} {tag : UInt8} {content part rest : List UInt8}
    (h : Record limit tag content (part ++ rest)) (hrest : rest ≠ []) :
    ∃ error, berRead part 0 = .error error := by
  have hmissing := List.length_pos_iff.mpr hrest
  generalize hrecord : part ++ rest = record at h
  obtain ⟨octets, hlength⟩ := h
  match part with
  | [] => exact ⟨_, rfl⟩
  | [_] => exact ⟨_, rfl⟩
  | a :: b :: part =>
    rw [berRead_cons]
    cases hlength with
    | short octet hoctet hsmall =>
      obtain ⟨-, rfl, htail⟩ : a = tag ∧ b = octet ∧ part ++ rest = content := by
        simpa using hrecord
      have hsum := congrArg List.length htail
      rw [List.length_append] at hsum
      exact ⟨"short", by rw [if_neg (by omega), if_pos (by omega)]⟩
    | long first octets hfirst hne hlimit hvalue =>
      obtain ⟨-, rfl, htail⟩ : a = tag ∧ b = first ∧ part ++ rest = octets ++ content := by
        simpa using hrecord
      have hsum := congrArg List.length htail
      rw [List.length_append, List.length_append] at hsum
      rw [if_pos (by omega)]
      split
      · exact ⟨_, rfl⟩
      next hcount =>
        have hbyte := UInt8.toNat_lt b
        have hmod : b.toNat % 128 = octets.length := by omega
        rw [hmod] at hcount ⊢
        have htake : part.take octets.length = octets := by
          have hfront : (part ++ rest).take octets.length = part.take octets.length :=
            List.take_append_of_le_length (by omega)
          rw [← hfront, htail, List.take_left]
        rw [htake, hvalue]
        exact ⟨"short", if_pos (by omega)⟩

end Ber
