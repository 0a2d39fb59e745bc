import ShaderAssist.Text.Blank

/-!
# Blanks and comments

Between the words of a document stand blanks and comments. A piece of them is a blank character, a
block comment up to its first closing mark, or a line comment up to the next line feed. When lines
are not crossed, only space and tab are blank, and a block comment has to end on its line. An
unterminated block comment is no such piece.
-/

namespace ShaderAssist

/-- Bytes up to the end of the block comment that the text is inside of, and the text after it. -/
def blockCommentTail (crossLine : Bool) : List Char → Option (Nat × List Char)
  | [] => none
  | '*' :: '/' :: cs => some (2, cs)
  | c :: cs =>
    if c = '\n' && !crossLine then none
    else (blockCommentTail crossLine cs).map fun r => (c.utf8Size + r.1, r.2)

/-- Bytes up to the end of the line, and the text from there on. -/
def lineCommentTail : List Char → Nat × List Char
  | [] => (0, [])
  | c :: cs =>
    if c = '\n' then (0, c :: cs)
    else let r := lineCommentTail cs; (c.utf8Size + r.1, r.2)

/-- Whether a character separates words. -/
def isSeparator (crossLine : Bool) (c : Char) : Bool :=
  if crossLine then isBlank c else c == ' ' || c == '\t'

/-- Bytes of the blank or comment that the text starts with, and the text after it. -/
def triviaPiece (crossLine : Bool) : List Char → Option (Nat × List Char)
  | [] => none
  | '/' :: '*' :: cs => (blockCommentTail crossLine cs).map fun r => (2 + r.1, r.2)
  | '/' :: '/' :: cs => let r := lineCommentTail cs; some (2 + r.1, r.2)
  | c :: cs => if isSeparator crossLine c then some (c.utf8Size, cs) else none

theorem blockCommentTail_length {crossLine : Bool} {cs : List Char} {r : Nat × List Char}
    (h : blockCommentTail crossLine cs = some r) : r.2.length < cs.length := by
  fun_induction blockCommentTail crossLine cs generalizing r with
  | case1 => simp at h
  | case2 cs =>
    simp only [Option.some.injEq] at h
    subst h
    exact Nat.lt_succ_of_lt (Nat.lt_succ_self _)
  | case3 => simp at h
  | case4 c cs _ _ ih =>
    obtain ⟨s, hs, rfl⟩ := Option.map_eq_some_iff.1 h
    have := ih hs
    simp; omega

theorem lineCommentTail_length (cs : List Char) : (lineCommentTail cs).2.length ≤ cs.length := by
  fun_induction lineCommentTail cs with
  | case1 => simp
  | case2 => simp
  | case3 c cs _ r ih => simp [r]; omega

/-- What follows a piece is shorter than the text. -/
theorem triviaPiece_length {crossLine : Bool} {cs : List Char} {r : Nat × List Char}
    (h : triviaPiece crossLine cs = some r) : r.2.length < cs.length := by
  unfold triviaPiece at h
  split at h
  · simp at h
  · obtain ⟨s, hs, rfl⟩ := Option.map_eq_some_iff.1 h
    have := blockCommentTail_length hs
    simp; omega
  · rename_i cs
    have := lineCommentTail_length cs
    simp only [Option.some.injEq] at h; subst h
    simp; omega
  · split at h
    · simp only [Option.some.injEq] at h; subst h; simp
    · simp at h

/-- Number of bytes of blanks and comments that a text starts with. -/
def triviaLength (crossLine : Bool) (cs : List Char) : Nat :=
  match h : triviaPiece crossLine cs with
  | none => 0
  | some r =>
    have := triviaPiece_length h
    r.1 + triviaLength crossLine r.2
termination_by cs.length

end ShaderAssist
