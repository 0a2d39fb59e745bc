import ShaderAssist.Proofs.Regex.Keywords
import ShaderAssist.Text.Trivia

/-!
# Blanks and comments as regular expressions

Blanks and comments are skipped directly, one piece after the other, and each way of crossing lines has a regular
expression that says the same. Both expressions have a program of one shape (`triviaProgram`), which is in one of
five states: between two pieces, behind the slash that may open a comment, in a block comment, behind a star in
it, or in a line comment. Each of them has one front of ways on, and the search goes from state to state as
skipping goes from piece to piece (`skipFrom_eq`). So the expressions find what is skipped
(`exists_ofSource?_triviaSource`).
-/

namespace ShaderAssist

namespace Program

/-! ### Searches whose ways on do not depend on the place -/

variable {p : Program} {pending pending' next : List Nat} {f f' : Front} {before before' : Option Char} {c : Char}
  {cs : List Char} {read i : Nat} {best best' : Option Nat}

/-- From some instructions the ways on are the same at all places. -/
def HasFront (p : Program) (pending : List Nat) (f : Front) : Prop :=
  ∀ spot, p.front spot pending = f

theorem HasFront.search_nil (h : p.HasFront pending f) :
    p.search before pending read best [] = if f.accepted then some read else best := by
  rw [search, h]

theorem HasFront.search_stop (h : p.HasFront pending f) (hc : f.after c = []) :
    p.search before pending read best (c :: cs) = if f.accepted then some read else best := by
  rw [search, h]
  simp only [hc]

theorem HasFront.search_step (h : p.HasFront pending f) (hc : f.after c = i :: next) :
    p.search before pending read best (c :: cs) =
      p.search (some c) (i :: next) (read + c.utf8Size) (if f.accepted then some read else best) cs := by
  rw [search, h]
  simp only [hc]

/-- Only where the next character leads matters, and the best end so far only where the search does not accept. -/
theorem HasFront.search_congr (h : p.HasFront pending f) (h' : p.HasFront pending' f')
    (haccepted : f.accepted = f'.accepted) (hafter : ∀ c ∈ cs.head?, f.after c = f'.after c)
    (hbest : f'.accepted ∨ best = best') :
    p.search before pending read best cs = p.search before' pending' read best' cs := by
  have hends : (if f'.accepted then some read else best) = if f'.accepted then some read else best' := by
    rcases hbest with hf | rfl
    · rw [if_pos hf, if_pos hf]
    · rfl
  cases cs with
  | nil => rw [h.search_nil, h'.search_nil, haccepted, hends]
  | cons c cs =>
    rw [search, search, h, h', haccepted, hends, hafter c rfl]

end Program

namespace Compile

open Program

/-! ### The program -/

variable {crossLine : Bool} {c : Char} {cs : List Char} {pending : List Nat} {before : Option Char} {read : Nat}
  {best : Option Nat}

/-- The characters that separate words. -/
def separators (crossLine : Bool) : CharSet :=
  if crossLine then .blank else .ofList [' ', '\t']

/-- The characters that are not the end of a line. -/
def inLine : CharSet :=
  .compl (.single '\n')

/-- The characters that may stand in a block comment. -/
def commented (crossLine : Bool) : CharSet :=
  if crossLine then .all else inLine

/-- The program of blanks and comments. -/
def triviaProgram (crossLine : Bool) : Program where
  code := #[.accept, .fork 14 0,
    -- a line comment
    .fork 3 1, .take inLine 2, .take (.single '/') 2, .take (.single '/') 4,
    -- a block comment, the last instruction first
    .take (.single '/') 1, .take (.single '*') 6, .fork 7 9, .take (commented crossLine) 8,
    .take (.single '*') 8, .take (.single '/') 10,
    .fork 11 5, .take (separators crossLine) 1, .fork 13 12, .check .textStart 1]
  start := 15

theorem program_triviaSource (crossLine : Bool) :
    (Regex.ofSource? (triviaSource crossLine)).map Regex.program = some (triviaProgram crossLine) := by
  cases crossLine <;> decide +kernel

theorem toNat_le_maxCode (c : Char) : c.toNat ≤ CharSet.maxCode := by
  unfold CharSet.maxCode
  rcases c.valid with h | ⟨-, h⟩
  · exact Nat.le_of_lt (Nat.lt_trans h (by decide))
  · exact Nat.le_of_lt_succ h

theorem contains_separators : (separators crossLine).contains c = isSeparator crossLine c := by
  cases crossLine with
  | true => rfl
  | false =>
    have hranges : (separators false).ranges = [('\t'.toNat, '\t'.toNat), (' '.toNat, ' '.toNat)] := by decide
    rw [CharSet.contains, hranges, isSeparator, Bool.eq_iff_iff]
    simp only [inRanges, Bool.or_false, Bool.false_eq_true, if_false, Bool.or_eq_true, beq_iff_eq, ← Char.toNat_inj]
    have htab : '\t'.toNat = 9 := rfl
    have hspace : ' '.toNat = 32 := rfl
    split <;> simp <;> omega

theorem contains_inLine : inLine.contains c = (c != '\n') := by
  have hranges : inLine.ranges = [(0, 9), (11, CharSet.maxCode)] := by decide
  have hfeed : '\n'.toNat = 10 := rfl
  have := toNat_le_maxCode c
  rw [CharSet.contains, hranges, Bool.eq_iff_iff, bne_iff_ne, ne_eq, ← Char.toNat_inj, hfeed]
  simp only [inRanges, Bool.or_false, Nat.not_lt_zero, if_false]
  split <;> simp <;> omega

theorem contains_commented : (commented crossLine).contains c = !(c = '\n' && !crossLine) := by
  cases crossLine with
  | true =>
    have hranges : (commented true).ranges = [(0, CharSet.maxCode)] := by decide
    rw [CharSet.contains, hranges]
    simp [inRanges, toNat_le_maxCode c]
  | false =>
    refine contains_inLine.trans ?_
    simp [bne, Bool.beq_eq_decide_eq]

/-! ### States -/

/-- The ways on between two pieces. -/
def pieceFront (crossLine : Bool) : Front :=
  ⟨[(separators crossLine, 1), (.single '/', 10), (.single '/', 4)], true⟩

/-- The ways on behind the slash that may open a comment. -/
def slashFront : Front :=
  ⟨[(.single '*', 8), (.single '/', 2)], false⟩

/-- The ways on in a block comment. -/
def blockFront (crossLine : Bool) : Front :=
  ⟨[(.single '*', 6), (commented crossLine, 8)], false⟩

/-- The ways on behind a star in a block comment. -/
def starFront (crossLine : Bool) : Front :=
  ⟨[(.single '/', 1), (.single '*', 6), (commented crossLine, 8)], false⟩

/-- The ways on in a line comment. -/
def lineFront (crossLine : Bool) : Front :=
  ⟨(inLine, 2) :: (pieceFront crossLine).steps, true⟩

/-- Between two pieces the search may end, so less preferred ways do not matter. -/
theorem hasFront_piece : (triviaProgram crossLine).HasFront (1 :: pending) (pieceFront crossLine) := fun spot => by
  simp [front, advance, triviaProgram, pieceFront]

theorem hasFront_slash : (triviaProgram crossLine).HasFront [10, 4] slashFront := fun spot => by
  simp [front, advance, triviaProgram, slashFront]

theorem hasFront_block : (triviaProgram crossLine).HasFront [8] (blockFront crossLine) := fun spot => by
  simp [front, advance, triviaProgram, blockFront]

theorem hasFront_star : (triviaProgram crossLine).HasFront [6, 8] (starFront crossLine) := fun spot => by
  simp [front, advance, triviaProgram, starFront]

/-- A line comment may end anywhere. To stay in it is preferred, and goes on to its end. -/
theorem hasFront_line : (triviaProgram crossLine).HasFront (2 :: pending) (lineFront crossLine) := fun spot => by
  simp [front, advance, triviaProgram, lineFront, pieceFront]

/-! ### Where a character leads -/

theorem isSeparator_slash (crossLine : Bool) : isSeparator crossLine '/' = false := by
  cases crossLine <;> decide

theorem after_piece_slash : (pieceFront crossLine).after '/' = [10, 4] := by
  simp [Front.after, pieceFront, contains_separators, isSeparator_slash, CharSet.contains_single]

theorem after_piece_of_ne_slash (hc : c ≠ '/') :
    (pieceFront crossLine).after c = if isSeparator crossLine c then [1] else [] := by
  cases h : isSeparator crossLine c <;>
    simp [Front.after, pieceFront, contains_separators, h, CharSet.contains_single, hc.symm]

theorem after_slash_of_ne (hstar : c ≠ '*') (hslash : c ≠ '/') : slashFront.after c = [] := by
  simp [Front.after, slashFront, CharSet.contains_single, hstar.symm, hslash.symm]

theorem after_block_star : (blockFront crossLine).after '*' = [6, 8] := by
  simp [Front.after, blockFront, contains_commented, CharSet.contains_single]

theorem after_block_of_ne (hc : c ≠ '*') :
    (blockFront crossLine).after c = if c = '\n' && !crossLine then [] else [8] := by
  cases h : decide (c = '\n') && !crossLine <;>
    simp [Front.after, blockFront, contains_commented, CharSet.contains_single, hc.symm, h]

theorem after_star_slash : (starFront crossLine).after '/' = [1, 8] := by
  simp [Front.after, starFront, contains_commented, CharSet.contains_single]

/-! ### Searching -/

/-- The end that is found from a place between two pieces on. -/
def skipFrom (crossLine : Bool) (read : Nat) (cs : List Char) : Option Nat :=
  (triviaProgram crossLine).search none [1] read none cs

theorem search_piece : (triviaProgram crossLine).search before (1 :: pending) read best cs =
    skipFrom crossLine read cs :=
  hasFront_piece.search_congr hasFront_piece rfl (fun _ _ => rfl) (Or.inl rfl)

/-- **In a line comment** the search goes on to its end. -/
theorem search_line : ∀ (cs : List Char) (pending : List Nat) (before : Option Char) (read : Nat)
    (best : Option Nat), (triviaProgram crossLine).search before (2 :: pending) read best cs =
      skipFrom crossLine (read + (lineCommentTail cs).1) (lineCommentTail cs).2
  | [], pending, before, read, best => by
    rw [hasFront_line.search_nil, skipFrom, lineCommentTail, hasFront_piece.search_nil]
    rfl
  | c :: cs, pending, before, read, best => by
    rw [lineCommentTail]
    split
    · next hc =>
      -- a line feed is no part of the comment, and leads where it leads between two pieces
      refine hasFront_line.search_congr hasFront_piece rfl ?_ (Or.inl rfl)
      rintro c' ⟨rfl⟩
      simp [Front.after, lineFront, contains_inLine, hc]
    · next hc =>
      have hafter : (lineFront crossLine).after c = 2 :: (pieceFront crossLine).after c := by
        simp [Front.after, lineFront, contains_inLine, hc]
      rw [hasFront_line.search_step hafter, search_line cs, Nat.add_assoc]

/-- Behind a star that does not close a block comment the search is still in it. -/
theorem search_star (hcs : ∀ rest, cs ≠ '/' :: rest) :
    (triviaProgram crossLine).search before [6, 8] read best cs =
      (triviaProgram crossLine).search before [8] read best cs := by
  refine hasFront_star.search_congr hasFront_block rfl ?_ (Or.inr rfl)
  intro c hc
  have hne : '/' ≠ c := by
    rintro rfl
    obtain ⟨rest, rfl⟩ := List.head?_eq_some_iff.mp hc
    exact hcs rest rfl
  simp [Front.after, starFront, blockFront, CharSet.contains_single, hne]

/-- **In a block comment** the search goes on to its first closing mark. Without one it finds nothing more. -/
theorem search_block (cs : List Char) (before : Option Char) (read : Nat) (best : Option Nat) :
    (triviaProgram crossLine).search before [8] read best cs =
      match blockCommentTail crossLine cs with
      | some r => skipFrom crossLine (read + r.1) r.2
      | none => best := by
  fun_induction blockCommentTail crossLine cs generalizing before read with
  | case1 =>
    rw [hasFront_block.search_nil]
    rfl
  | case2 cs =>
    rw [hasFront_block.search_step after_block_star, hasFront_star.search_step after_star_slash, search_piece]
    rfl
  | case3 c cs hne hc =>
    have hstar : c ≠ '*' := by
      rintro rfl
      simp at hc
    rw [hasFront_block.search_stop ((after_block_of_ne hstar).trans (if_pos hc))]
    rfl
  | case4 c cs hne hc ih =>
    -- a star that closes nothing leads to another state, from which the ways on are the same
    have hsearch : (triviaProgram crossLine).search before [8] read best (c :: cs) =
        (triviaProgram crossLine).search (some c) [8] (read + c.utf8Size) best cs := by
      by_cases hstar : c = '*'
      · subst hstar
        rw [hasFront_block.search_step after_block_star, search_star fun rest h => hne rest rfl h]
        rfl
      · rw [hasFront_block.search_step ((after_block_of_ne hstar).trans (if_neg hc))]
        rfl
    rw [hsearch, ih]
    cases blockCommentTail crossLine cs with
    | none => rfl
    | some r => simp only [Option.map_some, Nat.add_assoc]

/-- **A piece of blanks and comments** is passed as a whole; without one the search ends. -/
theorem skipFrom_piece (read : Nat) (cs : List Char) : skipFrom crossLine read cs =
    match triviaPiece crossLine cs with
    | some r => skipFrom crossLine (read + r.1) r.2
    | none => some read := by
  rw [skipFrom]
  fun_cases triviaPiece crossLine cs with
  | case1 =>
    rw [hasFront_piece.search_nil]
    rfl
  | case2 cs =>
    have hstar : slashFront.after '*' = [8] := by decide
    have hbytes : read + '/'.utf8Size + '*'.utf8Size = read + 2 := rfl
    rw [hasFront_piece.search_step after_piece_slash, hasFront_slash.search_step hstar, search_block, hbytes]
    cases blockCommentTail crossLine cs with
    | none => rfl
    | some r => simp only [Option.map_some, Nat.add_assoc]
  | case3 cs =>
    have hslash : slashFront.after '/' = [2] := by decide
    have hbytes : read + '/'.utf8Size + '/'.utf8Size = read + 2 := rfl
    rw [hasFront_piece.search_step after_piece_slash, hasFront_slash.search_step hslash, search_line, hbytes,
      Nat.add_assoc]
  | case4 c cs hblock hline hsep =>
    have hslash : c ≠ '/' := by
      rintro rfl
      rw [isSeparator_slash] at hsep
      cases hsep
    rw [hasFront_piece.search_step ((after_piece_of_ne_slash hslash).trans (if_pos hsep)), search_piece]
  | case5 c cs hblock hline hsep =>
    by_cases hslash : c = '/'
    · subst hslash
      rw [hasFront_piece.search_step after_piece_slash]
      -- the slash opens no comment
      cases cs with
      | nil =>
        rw [hasFront_slash.search_nil]
        rfl
      | cons d cs =>
        have hstar : d ≠ '*' := fun h => hblock cs rfl (h ▸ rfl)
        have hslash : d ≠ '/' := fun h => hline cs rfl (h ▸ rfl)
        rw [hasFront_slash.search_stop (after_slash_of_ne hstar hslash)]
        rfl
    · rw [hasFront_piece.search_stop ((after_piece_of_ne_slash hslash).trans (if_neg hsep))]
      rfl

/-- From a place between two pieces on, the search finds all that is skipped there. -/
theorem skipFrom_eq (read : Nat) (cs : List Char) :
    skipFrom crossLine read cs = some (read + triviaLength crossLine cs) := by
  fun_induction triviaLength crossLine cs generalizing read with
  | case1 cs h =>
    rw [skipFrom_piece, h]
    rfl
  | case2 cs r h _ ih =>
    rw [skipFrom_piece, h]
    exact (ih _).trans (congrArg some (Nat.add_assoc ..))

/-- **The regular expressions of blanks and comments** find what is skipped. -/
theorem exists_ofSource?_triviaSource (crossLine : Bool) :
    ∃ regex, Regex.ofSource? (triviaSource crossLine) = some regex ∧
      ∀ s, regex.program.matchLength? s = some (triviaLength crossLine s.chars) := by
  obtain ⟨regex, hregex, hprogram⟩ := Option.map_eq_some_iff.mp (program_triviaSource crossLine)
  refine ⟨regex, hregex, fun s => ?_⟩
  have hstart : (triviaProgram crossLine).front ⟨none, s.chars⟩ [15] =
      (triviaProgram crossLine).front ⟨none, s.chars⟩ [1] := by
    -- the condition on the start holds there, and leads on to the first piece
    rw [hasFront_piece]
    simp [front, advance, triviaProgram, pieceFront, Spot.satisfies]
  rw [hprogram, matchLength?]
  exact (search_congr hstart 0 none).trans ((skipFrom_eq 0 s.chars).trans (by rw [Nat.zero_add]))

end Compile

end ShaderAssist
