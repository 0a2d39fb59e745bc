import ShaderAssist.Proofs.Text.Pieces
import Mathlib.Logic.Relation

/-!
# Passing over blanks and comments

`Passes cs ds` says that `ds` is left of `cs` after some whole blanks and comments. The pieces are those
that may hold line feeds; a piece of one line is one of them as well (`triviaPiece_split`). Passing is
transitive, while texts of blanks and comments cannot be put together in general: a line comment would
swallow what follows it. It is as pieces of one text that gaps add up.

What was passed over is blanks and comments also when it is looked at alone
(`Passes.exists_gap`): the piece before a cut is not affected by the cut, since a line comment that is
followed by anything is followed by a line feed.
-/

namespace ShaderAssist

open Relation (ReflTransGen)

/-! ### Pieces -/

/-- **A piece is a prefix** of the text, and it stays a piece that may hold line feeds if the text is
cut anywhere behind it. -/
theorem triviaPiece_split {crossLine : Bool} {cs : List Char} {r : Nat × List Char}
    (h : triviaPiece crossLine cs = some r) :
    ∃ piece, cs = piece ++ r.2 ∧ r.1 = byteLength piece ∧
      ∀ gap rest, r.2 = gap ++ rest → triviaPiece true (piece ++ gap) = some (r.1, gap) := by
  obtain ⟨piece, hcs, hn, hpiece⟩ := triviaPiece_eq_some_iff.mp h
  refine ⟨piece, hcs, hn, fun gap rest hgap => ?_⟩
  rw [hgap] at hpiece
  exact triviaPiece_eq_some_iff.mpr ⟨piece, rfl, hn, hpiece.cut.cross⟩

/-! ### Passing -/

/-- One blank or comment leads from a text to another one. -/
def PassesPiece (cs ds : List Char) : Prop :=
  ∃ n, triviaPiece true cs = some (n, ds)

/-- Whole blanks and comments lead from a text to another one. -/
def Passes : List Char → List Char → Prop :=
  ReflTransGen PassesPiece

theorem PassesPiece.of_triviaPiece {crossLine : Bool} {cs : List Char} {r : Nat × List Char}
    (h : triviaPiece crossLine cs = some r) : PassesPiece cs r.2 := by
  obtain ⟨piece, rfl, -, hp⟩ := triviaPiece_split h
  exact ⟨r.1, hp r.2 [] (List.append_nil _).symm⟩

theorem passesPiece_blank {c : Char} (h : isBlank c) (rest : List Char) :
    PassesPiece (c :: rest) rest :=
  ⟨_, triviaPiece_eq_some_iff.mpr ⟨[c], rfl, rfl, .blank h⟩⟩

/-- The blanks and comments at the start of a text are passed over, and none of them is left. -/
theorem triviaLength_split (crossLine : Bool) (cs : List Char) :
    ∃ gap rest, cs = gap ++ rest ∧ triviaLength crossLine cs = byteLength gap ∧ Passes cs rest ∧
      triviaPiece crossLine rest = none := by
  fun_induction triviaLength crossLine cs with
  | case1 cs h => exact ⟨[], cs, rfl, rfl, .refl, h⟩
  | case2 cs r h _ ih =>
    obtain ⟨gap, rest, hr, hl, hp, hnone⟩ := ih
    obtain ⟨piece, hcs, hn, -⟩ := triviaPiece_split h
    refine ⟨piece ++ gap, rest, ?_, ?_, .head (.of_triviaPiece h) hp, hnone⟩
    · rw [hcs, hr, List.append_assoc]
    · rw [hl, hn, byteLength_append]

theorem triviaLength_of_piece {crossLine : Bool} {cs : List Char} {r : Nat × List Char}
    (h : triviaPiece crossLine cs = some r) :
    triviaLength crossLine cs = r.1 + triviaLength crossLine r.2 := by
  rw [triviaLength]
  split
  · next h' => rw [h] at h'; simp at h'
  · next s h' => rw [h, Option.some.injEq] at h'; rw [h']

/-- **What was passed over is blanks and comments also if it stands alone.** -/
theorem Passes.exists_gap {cs ds : List Char} (h : Passes cs ds) :
    ∃ gap, cs = gap ++ ds ∧ triviaLength true gap = byteLength gap := by
  induction h using ReflTransGen.head_induction_on with
  | refl =>
    refine ⟨[], rfl, ?_⟩
    rw [triviaLength]
    rfl
  | head hstep _ ih =>
    obtain ⟨n, hn⟩ := hstep
    obtain ⟨gap, rfl, hgap⟩ := ih
    obtain ⟨piece, rfl, hp, hcut⟩ := triviaPiece_split hn
    refine ⟨piece ++ gap, (List.append_assoc _ _ _).symm, ?_⟩
    rw [triviaLength_of_piece (hcut gap ds rfl), hgap, byteLength_append, hp]

/-! ### Passing in a document -/

namespace Document

variable {d : Document} {a b c : Nat}

/-- The text between two offsets is nothing but blanks and whole comments. -/
def IsTrivia (d : Document) (start stop : Nat) : Prop :=
  ∃ gap, d.textBetween start stop = some gap ∧ triviaLength true gap = byteLength gap

/-- Whole blanks and comments lead from an offset of a document to another one. -/
def Passes (d : Document) (start stop : Nat) : Prop :=
  ∃ cs ds, d.RestAt start cs ∧ d.RestAt stop ds ∧ ShaderAssist.Passes cs ds

theorem Passes.refl (h : d.IsBoundary a) : d.Passes a a := by
  obtain ⟨rest, h⟩ := h
  exact ⟨rest, rest, h, h, .refl⟩

theorem Passes.trans (h : d.Passes a b) (h' : d.Passes b c) : d.Passes a c := by
  obtain ⟨cs, ds, hcs, hds, hp⟩ := h
  obtain ⟨ds', es, hds', hes, hp'⟩ := h'
  obtain rfl := hds.unique hds'
  exact ⟨cs, es, hcs, hes, ReflTransGen.trans hp hp'⟩

theorem Passes.isBoundary_right (h : d.Passes a b) : d.IsBoundary b := by
  obtain ⟨-, ds, -, h, -⟩ := h
  exact ⟨ds, h⟩

theorem Passes.exists_gap (h : d.Passes a b) : ∃ gap rest, d.RestAt a (gap ++ rest) ∧
    b = a + byteLength gap ∧ triviaLength true gap = byteLength gap := by
  obtain ⟨cs, ds, hcs, hds, hp⟩ := h
  obtain ⟨gap, rfl, hgap⟩ := hp.exists_gap
  refine ⟨gap, ds, hcs, ?_, hgap⟩
  have h1 := hcs.add_byteLength
  have h2 := hds.add_byteLength
  rw [byteLength_append] at h1
  omega

theorem Passes.le (h : d.Passes a b) : a ≤ b := by
  obtain ⟨gap, -, -, rfl, -⟩ := h.exists_gap
  exact Nat.le_add_right _ _

theorem Passes.isTrivia (h : d.Passes a b) : d.IsTrivia a b := by
  obtain ⟨gap, rest, hr, rfl, hgap⟩ := h.exists_gap
  exact ⟨gap, hr.textBetween, hgap⟩

end Document

end ShaderAssist
