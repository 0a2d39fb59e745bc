import ShaderAssist.Proofs.Text.Passing

/-!
# What skipping passes over

Pieces follow each other in front of a rest (`ArePieces`), and they are all that can be skipped if no piece
stands at the start of the rest (`IsSkipped`). Since at most one piece stands at the start of a text, there is
one way to skip, and `triviaLength` is its length (`IsSkipped.triviaLength_eq`). It ends at the latest at a
block comment that is not terminated (`IsUnterminated.isSkipped`).
-/

namespace ShaderAssist

variable {crossLine : Bool} {piece gap rest : List Char}

/-! ### Block comments that are not terminated -/

/-- No closing mark follows; if lines are not crossed, one behind a line feed does not count. -/
def IsUnterminated (crossLine : Bool) (cs : List Char) : Prop :=
  ∀ body rest, cs = body ++ (closingMark ++ rest) → crossLine = false ∧ '\n' ∈ body

theorem IsUnterminated.blockCommentTail_eq_none {cs : List Char}
    (h : IsUnterminated crossLine cs) : blockCommentTail crossLine cs = none := by
  cases htail : blockCommentTail crossLine cs with
  | none => rfl
  | some r =>
    obtain ⟨body, hcs, -, -, hline⟩ := blockCommentTail_eq_some_iff.mp htail
    obtain ⟨rfl, hmem⟩ := h body r.2 hcs
    exact absurd hmem (by simpa using hline)

/-- Nothing can be skipped at the start of an unterminated block comment. -/
theorem IsUnterminated.not_isPiece {body : List Char} (h : IsUnterminated crossLine body) :
    ∀ rest, '/' :: '*' :: body = piece ++ rest → ¬ IsPiece crossLine piece rest := by
  intro rest hcs hpiece
  have hsome := triviaPiece_eq_some_iff.mpr ⟨piece, hcs, rfl, hpiece⟩
  rw [triviaPiece, h.blockCommentTail_eq_none] at hsome
  cases hsome

/-! ### Pieces in a row -/

/-- **Blanks and comments in a row** in front of a text. -/
inductive ArePieces (crossLine : Bool) : (gap rest : List Char) → Prop where
  | nil {rest : List Char} : ArePieces crossLine [] rest
  | cons {piece gap rest : List Char} : IsPiece crossLine piece (gap ++ rest) →
      ArePieces crossLine gap rest → ArePieces crossLine (piece ++ gap) rest

theorem ArePieces.cross (h : ArePieces crossLine gap rest) : ArePieces true gap rest := by
  induction h with
  | nil => exact .nil
  | cons hpiece _ ih => exact .cons hpiece.cross ih

theorem ArePieces.feedless (h : ArePieces false gap rest) : '\n' ∉ gap := by
  induction h with
  | nil => exact List.not_mem_nil
  | cons hpiece _ ih => simp [hpiece.feedless, ih]

/-- What is skipped of a text that starts with pieces. -/
theorem ArePieces.triviaLength_append (h : ArePieces crossLine gap rest) :
    triviaLength crossLine (gap ++ rest) = byteLength gap + triviaLength crossLine rest := by
  induction h with
  | nil => rw [List.nil_append, byteLength_nil, Nat.zero_add]
  | cons hpiece _ ih =>
    have hsome := triviaPiece_eq_some_iff.mpr ⟨_, rfl, rfl, hpiece⟩
    rw [List.append_assoc, triviaLength_of_piece hsome, ih, byteLength_append, Nat.add_assoc]

/-- **All that can be skipped of a text:** pieces in a row, and no piece at the start of the rest. -/
structure IsSkipped (crossLine : Bool) (gap rest : List Char) : Prop where
  pieces : ArePieces crossLine gap rest
  maximal : ∀ piece rest', rest = piece ++ rest' → ¬ IsPiece crossLine piece rest'

/-- Behind what is skipped nothing more is skipped. -/
theorem IsSkipped.triviaLength_rest (h : IsSkipped crossLine gap rest) :
    triviaLength crossLine rest = 0 := by
  rw [triviaLength]
  split
  · rfl
  · next r hr =>
    obtain ⟨piece, hrest, -, hpiece⟩ := triviaPiece_eq_some_iff.mp hr
    exact absurd hpiece (h.maximal piece r.2 hrest)

theorem IsSkipped.triviaLength_eq (h : IsSkipped crossLine gap rest) :
    triviaLength crossLine (gap ++ rest) = byteLength gap := by
  rw [h.pieces.triviaLength_append, h.triviaLength_rest, Nat.add_zero]

/-- There is only one way to skip. -/
theorem IsSkipped.unique {gap' rest' : List Char} (h : IsSkipped crossLine gap rest)
    (h' : IsSkipped crossLine gap' rest') (hcs : gap ++ rest = gap' ++ rest') : gap = gap' :=
  (append_inj_of_byteLength hcs (by rw [← h.triviaLength_eq, ← h'.triviaLength_eq, hcs])).1

/-- Every text starts with what can be skipped of it. -/
theorem exists_isSkipped (crossLine : Bool) (cs : List Char) :
    ∃ gap rest, cs = gap ++ rest ∧ IsSkipped crossLine gap rest := by
  fun_induction triviaLength crossLine cs with
  | case1 cs hnone =>
    refine ⟨[], cs, rfl, .nil, fun piece rest hcs hpiece => ?_⟩
    rw [triviaPiece_eq_some_iff.mpr ⟨piece, hcs, rfl, hpiece⟩] at hnone
    cases hnone
  | case2 cs r hsome _ ih =>
    obtain ⟨gap, rest, hr, hskipped⟩ := ih
    obtain ⟨piece, rfl, -, hpiece⟩ := triviaPiece_eq_some_iff.mp hsome
    rw [hr] at hpiece ⊢
    exact ⟨piece ++ gap, rest, (List.append_assoc ..).symm, .cons hpiece hskipped.pieces, hskipped.maximal⟩

/-- On its line no more is skipped than across lines. -/
theorem triviaLength_false_le (cs : List Char) : triviaLength false cs ≤ triviaLength true cs := by
  obtain ⟨gap, rest, rfl, hskipped⟩ := exists_isSkipped false cs
  rw [hskipped.triviaLength_eq, hskipped.pieces.cross.triviaLength_append]
  exact Nat.le_add_right _ _

/-- Pieces in front of an unterminated block comment are all that can be skipped. -/
theorem IsUnterminated.isSkipped {body : List Char} (h : IsUnterminated crossLine body)
    (hgap : ArePieces crossLine gap ('/' :: '*' :: body)) :
    IsSkipped crossLine gap ('/' :: '*' :: body) :=
  ⟨hgap, fun _ => h.not_isPiece⟩

/-- **Skipping blanks and comments.** On its line no more is skipped than across lines. In both ways a text
is cut into pieces in a row, whose length is the answer, and a rest; on the line the pieces hold no line feed,
the rest starts with no piece, so that nothing more is skipped from there, and skipping stops at a block
comment that is not terminated. -/
theorem triviaLength_skips (cs : List Char) : triviaLength false cs ≤ triviaLength true cs ∧
    ∀ crossLine, ∃ gap rest, cs = gap ++ rest ∧ triviaLength crossLine cs = byteLength gap ∧
      ArePieces crossLine gap rest ∧ (crossLine = false → '\n' ∉ gap) ∧
      (∀ piece rest', rest = piece ++ rest' → ¬ IsPiece crossLine piece rest') ∧
      triviaLength crossLine rest = 0 ∧
      ∀ front body, cs = front ++ '/' :: '*' :: body →
        ArePieces crossLine front ('/' :: '*' :: body) → IsUnterminated crossLine body → gap = front := by
  refine ⟨triviaLength_false_le cs, fun crossLine => ?_⟩
  obtain ⟨gap, rest, rfl, hskipped⟩ := exists_isSkipped crossLine cs
  refine ⟨gap, rest, rfl, hskipped.triviaLength_eq, hskipped.pieces, ?_, hskipped.maximal,
    hskipped.triviaLength_rest, fun front body hcs hfront hbody => ?_⟩
  · rintro rfl
    exact hskipped.pieces.feedless
  · exact hskipped.unique (hbody.isSkipped hfront) hcs

end ShaderAssist
