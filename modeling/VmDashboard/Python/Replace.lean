import Mathlib.Data.List.Infix
import Mathlib.Data.Nat.Notation

/-!
# `str.replace`

The occurrences of a needle are found from the left and do not overlap; what stands between them
are the pieces `str.split` gives, and the replaced text is the pieces joined with the marker. A needle
that does not overlap the marker occurs in a joined text only where it occurs in a piece.
-/

namespace Python
variable {α : Type*}

/-- The marker and the needle share no part: neither stands inside the other, and no end of one is
the beginning of the other. -/
structure Apart (marker needle : List α) : Prop where
  inside : ¬needle <:+: marker
  around : ¬marker <:+: needle
  before : ∀ part, part <:+ marker → part <+: needle → part = []
  after : ∀ part, part <:+ needle → part <+: marker → part = []

/-- An occurrence next to one marker lies on one side of it. -/
theorem Apart.infix_cases {marker needle : List α} (h : Apart marker needle) {u v : List α}
    (hin : needle <:+: u ++ (marker ++ v)) : needle <:+: u ∨ needle <:+: v := by
  obtain ⟨a, b, hab⟩ := hin
  rw [List.append_assoc] at hab
  rcases List.append_eq_append_iff.mp hab with ⟨e, hu, he⟩ | ⟨e, ha, he⟩
  · -- the occurrence begins in `u`
    rcases List.append_eq_append_iff.mp he with ⟨g, hg, -⟩ | ⟨d, hd, hrest⟩
    · refine .inl ⟨a, g, ?_⟩
      rw [hu, hg, List.append_assoc]
    · rcases List.append_eq_append_iff.mp hrest with ⟨g, hg, -⟩ | ⟨g, hg, -⟩
      · exact absurd ⟨e, g, by rw [hd, hg, List.append_assoc]⟩ h.around
      · have hnil : d = [] := h.after d ⟨e, hd.symm⟩ ⟨g, hg.symm⟩
        rw [hnil, List.append_nil] at hd
        exact .inl ⟨a, [], by rw [hu, hd, List.append_nil]⟩
  · -- the occurrence begins in the marker or in `v`
    rcases List.append_eq_append_iff.mp he with ⟨g, -, hv⟩ | ⟨g, hg, hrest⟩
    · exact .inr ⟨g, b, by rw [hv, List.append_assoc]⟩
    · rcases List.append_eq_append_iff.mp hrest with ⟨k, hk, -⟩ | ⟨k, hk, hv⟩
      · exact absurd ⟨e, k, by rw [hg, hk, List.append_assoc]⟩ h.inside
      · have hnil : g = [] := h.before g ⟨e, hg.symm⟩ ⟨k, hk.symm⟩
        rw [hnil, List.nil_append] at hk
        exact .inr ⟨[], b, by rw [hv, hk, List.nil_append]⟩

def joinWith (marker : List α) : List (List α) → List α
  | [] => []
  | [piece] => piece
  | piece :: rest => piece ++ (marker ++ joinWith marker rest)

theorem Apart.infix_joinWith {marker needle : List α} (h : Apart marker needle) {ps : List (List α)}
    (hneedle : needle ≠ []) (hin : needle <:+: joinWith marker ps) : ∃ piece ∈ ps, needle <:+: piece := by
  induction ps with
  | nil => exact absurd (List.infix_nil.mp hin) hneedle
  | cons p ps ih =>
    cases ps with
    | nil => exact ⟨p, List.mem_cons_self, hin⟩
    | cons q ps =>
      rcases h.infix_cases hin with hfirst | hrest
      · exact ⟨p, List.mem_cons_self, hfirst⟩
      · obtain ⟨piece, hpiece, hinside⟩ := ih hrest
        exact ⟨piece, List.mem_cons_of_mem _ hpiece, hinside⟩

/-! ### The pieces -/

section Pieces
variable [DecidableEq α]

def addHead (c : α) : List (List α) → List (List α)
  | [] => [[c]]
  | piece :: rest => (c :: piece) :: rest

/-- What stands between the occurrences of the needle, after the first `skip` letters. -/
def pieces (needle : List α) : ℕ → List α → List (List α)
  | _, [] => [[]]
  | skip + 1, _ :: text => pieces needle skip text
  | 0, c :: text =>
    if needle <+: c :: text then [] :: pieces needle (needle.length - 1) text
    else addHead c (pieces needle 0 text)

/-- `text.replace(needle, marker)` of a needle that is not empty. -/
def replace (needle marker text : List α) : List α := joinWith marker (pieces needle 0 text)

/-- The first piece begins where the text does, and every piece stands in it. -/
theorem pieces_inside (needle : List α) (skip : ℕ) (text : List α) :
    (∃ first rest, pieces needle skip text = first :: rest ∧ first <+: text.drop skip) ∧
      ∀ piece ∈ pieces needle skip text, piece <:+: text := by
  induction text generalizing skip with
  | nil =>
    refine ⟨⟨[], [], by cases skip <;> rfl, List.nil_prefix⟩, fun piece hpiece => ?_⟩
    have hnil : pieces needle skip ([] : List α) = [[]] := by cases skip <;> rfl
    rw [hnil] at hpiece
    rw [List.mem_singleton.mp hpiece]
  | cons c text ih =>
    cases skip with
    | succ skip =>
      obtain ⟨hfirst, hall⟩ := ih skip
      exact ⟨hfirst, fun piece hpiece => (hall piece hpiece).trans (List.suffix_cons c text).isInfix⟩
    | zero =>
      simp only [pieces]
      split
      · refine ⟨⟨[], _, rfl, List.nil_prefix⟩, fun piece hpiece => ?_⟩
        rcases List.mem_cons.mp hpiece with rfl | hrest
        · exact List.nil_infix
        · exact ((ih _).2 piece hrest).trans (List.suffix_cons c text).isInfix
      · obtain ⟨⟨first, rest, heq, hfirst⟩, hall⟩ := ih 0
        have hstart : c :: first <+: c :: text := List.cons_prefix_cons.mpr ⟨rfl, hfirst⟩
        rw [heq]
        refine ⟨⟨c :: first, rest, rfl, hstart⟩, fun piece hpiece => ?_⟩
        rcases List.mem_cons.mp hpiece with rfl | hrest
        · exact hstart.isInfix
        · rw [heq] at hall
          exact (hall piece (List.mem_cons_of_mem _ hrest)).trans (List.suffix_cons c text).isInfix

/-- No piece holds the needle. -/
theorem pieces_free {needle : List α} (hneedle : needle ≠ []) (skip : ℕ) (text : List α) :
    ∀ piece ∈ pieces needle skip text, ¬needle <:+: piece := by
  have hnil : ¬needle <:+: [] := fun hin => hneedle (List.infix_nil.mp hin)
  induction text generalizing skip with
  | nil =>
    intro piece hpiece
    have hsingle : pieces needle skip ([] : List α) = [[]] := by cases skip <;> rfl
    rw [hsingle] at hpiece
    rwa [List.mem_singleton.mp hpiece]
  | cons c text ih =>
    cases skip with
    | succ skip => exact ih skip
    | zero =>
      intro piece hpiece
      simp only [pieces] at hpiece
      split at hpiece
      · rcases List.mem_cons.mp hpiece with rfl | hrest
        · exact hnil
        · exact ih _ piece hrest
      next hnot =>
        obtain ⟨⟨first, rest, heq, hfirst⟩, -⟩ := pieces_inside needle 0 text
        have hall := ih 0
        rw [heq] at hpiece hall
        rcases List.mem_cons.mp hpiece with rfl | hrest
        · intro hin
          rcases List.infix_cons_iff.mp hin with hstart | hlater
          · -- an occurrence at `c` would have been found
            exact hnot (hstart.trans (List.cons_prefix_cons.mpr ⟨rfl, hfirst⟩))
          · exact hall first List.mem_cons_self hlater
        · exact hall piece (List.mem_cons_of_mem _ hrest)

/-- Nothing that is apart from the marker comes into a text by a replacement. -/
theorem Apart.of_infix_replace {marker other : List α} (h : Apart marker other) (hother : other ≠ [])
    {needle text : List α} (hin : other <:+: replace needle marker text) : other <:+: text := by
  obtain ⟨piece, hpiece, hinside⟩ := h.infix_joinWith hother hin
  exact hinside.trans ((pieces_inside needle 0 text).2 piece hpiece)

theorem Apart.not_infix_replace {marker needle : List α} (h : Apart marker needle)
    (hneedle : needle ≠ []) (text : List α) : ¬needle <:+: replace needle marker text := by
  intro hin
  obtain ⟨piece, hpiece, hinside⟩ := h.infix_joinWith hneedle hin
  exact pieces_free hneedle 0 text piece hpiece hinside

theorem pieces_of_free {needle text : List α} (h : ¬needle <:+: text) :
    pieces needle 0 text = [text] := by
  induction text with
  | nil => rfl
  | cons c text ih =>
    have hhead : ¬needle <+: c :: text := fun hstart => h hstart.isInfix
    have htail : ¬needle <:+: text := fun hin => h (hin.trans (List.suffix_cons c text).isInfix)
    simp only [pieces, if_neg hhead, ih htail, addHead]

theorem replace_of_free {needle text : List α} (h : ¬needle <:+: text) (marker : List α) :
    replace needle marker text = text := by
  rw [replace, pieces_of_free h, joinWith]

theorem pieces_ne_nil (needle : List α) (skip : ℕ) (text : List α) : pieces needle skip text ≠ [] := by
  obtain ⟨⟨first, rest, heq, -⟩, -⟩ := pieces_inside needle skip text
  rw [heq]
  exact List.cons_ne_nil first rest

/-- A needle of one letter is replaced letter by letter. -/
theorem replace_singleton (c : α) (marker text : List α) :
    replace [c] marker text = text.flatMap fun d => if d = c then marker else [d] := by
  induction text with
  | nil => rfl
  | cons d text ih =>
    rw [replace] at ih
    obtain ⟨first, rest, heq⟩ := List.exists_cons_of_ne_nil (pieces_ne_nil [c] 0 text)
    rw [replace, List.flatMap_cons, ← ih, pieces]
    by_cases hd : d = c
    · have hstart : [c] <+: d :: text := List.cons_prefix_cons.mpr ⟨hd.symm, List.nil_prefix⟩
      rw [if_pos hstart, if_pos hd, List.length_singleton, heq]
      rfl
    · have hstart : ¬[c] <+: d :: text := fun h => hd (List.cons_prefix_cons.mp h).1.symm
      rw [if_neg hstart, if_neg hd, heq]
      cases rest <;> rfl

/-- One after the other, the needles are all gone from the text. -/
theorem not_infix_foldl_replace {marker : List α} {needles : List (List α)} {needle : List α}
    (hneedle : needle ≠ []) (hapart : Apart marker needle) (hmem : needle ∈ needles) (text : List α) :
    ¬needle <:+: needles.foldl (fun out other => replace other marker out) text := by
  have hkeeps : ∀ (others : List (List α)) (out : List α), ¬needle <:+: out →
      ¬needle <:+: others.foldl (fun out other => replace other marker out) out := by
    intro others
    induction others with
    | nil => exact fun _ h => h
    | cons other others ih =>
      exact fun out h => ih _ fun hin => h (hapart.of_infix_replace hneedle hin)
  induction needles generalizing text with
  | nil => cases hmem
  | cons other needles ih =>
    rcases List.mem_cons.mp hmem with rfl | hrest
    · exact hkeeps needles _ (hapart.not_infix_replace hneedle text)
    · exact ih hrest _

theorem foldl_replace_of_free {marker : List α} {needles : List (List α)} {text : List α}
    (h : ∀ needle ∈ needles, ¬needle <:+: text) :
    needles.foldl (fun out needle => replace needle marker out) text = text := by
  induction needles with
  | nil => rfl
  | cons needle needles ih =>
    rw [List.foldl_cons, replace_of_free (h needle List.mem_cons_self)]
    exact ih fun other hother => h other (List.mem_cons_of_mem _ hother)

end Pieces

/-- Deciding it goes through the beginnings and the ends of the needle. -/
theorem apart_iff {marker needle : List α} : Apart marker needle ↔
    ¬needle <:+: marker ∧ ¬marker <:+: needle ∧
      (∀ part ∈ needle.inits, part <:+ marker → part = []) ∧
      ∀ part ∈ needle.tails, part <+: marker → part = [] := by
  constructor
  · intro h
    exact ⟨h.inside, h.around, fun part hpart hsuffix =>
      h.before part hsuffix ((List.mem_inits _ _).mp hpart),
      fun part hpart => h.after part ((List.mem_tails _ _).mp hpart)⟩
  · rintro ⟨hinside, haround, hbefore, hafter⟩
    exact ⟨hinside, haround, fun part hsuffix hstart =>
      hbefore part ((List.mem_inits _ _).mpr hstart) hsuffix,
      fun part hsuffix hstart => hafter part ((List.mem_tails _ _).mpr hsuffix) hstart⟩

instance [DecidableEq α] (marker needle : List α) : Decidable (Apart marker needle) :=
  decidable_of_iff _ apart_iff.symm

example : replace "bb".toList "-".toList "abbbbcb".toList = "a--cb".toList := by decide

end Python
