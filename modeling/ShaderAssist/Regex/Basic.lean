import ShaderAssist.Regex.CharSet

/-!
# Regular expressions

The expressions, and the constructors that keep them in a normal form: a sequence holds no empty
piece, no sequence and no two literal texts side by side; an alternation holds no alternation, and
what its branches begin with in common stands before it; what can only match the empty text is not
repeated. The normal form decides which expressions are small enough to be used, and in which order
the ways to match are tried when a repeated piece can match the empty text.

Sequences and alternations are chains that lean to the right.
-/

namespace ShaderAssist

/-- A condition on the place between two characters. -/
inductive Assertion where
  | textStart
  | textEnd
  | lineStart
  | lineEnd
  | wordBoundary
  | noWordBoundary
  | wordStart
  | wordEnd
  | wordStartHalf
  | wordEndHalf
deriving DecidableEq, Repr, Inhabited

/-- A regular expression. -/
inductive Regex where
  /-- Matches the empty text. -/
  | empty
  /-- Matches a text that is not empty. -/
  | literal (text : List Char)
  /-- Matches one character of a set. -/
  | set (s : CharSet)
  /-- Matches the empty text where a condition holds. -/
  | assert (a : Assertion)
  /-- Matches what `r` matches; groups are told apart by their numbers. -/
  | group (number : Nat) (r : Regex)
  | seq (r s : Regex)
  | alt (r s : Regex)
  /-- Matches `r` at least `least` times, and at most `most` times if that is given. -/
  | rep (least : Nat) (most : Option Nat) (greedy : Bool) (r : Regex)
deriving DecidableEq, Repr, Inhabited

namespace Regex

/-! ### Lengths -/

/-- The sum of two lengths, if both are known. -/
def addLengths : Option Nat → Option Nat → Option Nat
  | some m, some n => some (m + n)
  | _, _ => none

/-- Length of the shortest text that an expression matches; none if it may have no match. -/
def leastLength? : Regex → Option Nat
  | empty | assert _ => some 0
  | literal text => some text.length
  | set s => if s.ranges.isEmpty then none else some 1
  | group _ r => r.leastLength?
  | seq r s => addLengths r.leastLength? s.leastLength?
  | alt r s =>
    match r.leastLength?, s.leastLength? with
    | some m, some n => some (min m n)
    | _, _ => none
  | rep least _ _ r => r.leastLength?.map (· * least)

/-- Length of the longest text that an expression matches; none if there is no bound. -/
def greatestLength? : Regex → Option Nat
  | empty | assert _ => some 0
  | literal text => some text.length
  | set s => if s.ranges.isEmpty then none else some 1
  | group _ r => r.greatestLength?
  | seq r s => addLengths r.greatestLength? s.greatestLength?
  | alt r s =>
    match r.greatestLength?, s.greatestLength? with
    | some m, some n => some (max m n)
    | _, _ => none
  | rep _ most _ r =>
    match most, r.greatestLength? with
    | some most, some n => some (n * most)
    | _, _ => none

/-- Whether every match of an expression is known to consume a character. -/
def consumes (r : Regex) : Bool :=
  r.leastLength?.any (0 < ·)

/-- Whether an expression can only match the empty text. -/
def isEmptyOnly (r : Regex) : Bool :=
  r.greatestLength? == some 0

/-! ### Constructors -/

/-- The expression of one character of a set. -/
def ofSet (s : CharSet) : Regex :=
  match s.onlyChar? with
  | some c => literal [c]
  | none => set s

/-- The pieces of a sequence in order. -/
def pieces : Regex → List Regex
  | empty => []
  | seq r s => r :: s.pieces
  | r => [r]

/-- The branches of an alternation in order. -/
def branches : Regex → List Regex
  | alt r s => r :: s.branches
  | r => [r]

/-- The chain of some pieces. -/
def ofPieces : List Regex → Regex
  | [] => empty
  | [r] => r
  | r :: rs => seq r (ofPieces rs)

/-- The chain of some branches. -/
def ofBranches : List Regex → Regex
  | [] => set .none
  | [r] => r
  | r :: rs => alt r (ofBranches rs)

/-- Puts a piece before others, joining literal texts. -/
def consPiece : Regex → List Regex → List Regex
  | literal s, literal t :: rest => literal (s ++ t) :: rest
  | r, rest => r :: rest

/-- The sequence of some expressions. -/
def concat (rs : List Regex) : Regex :=
  ofPieces ((rs.flatMap pieces).foldr consPiece [])

/-- The character that an expression consists of. -/
def char? : Regex → Option Char
  | literal [c] => some c
  | _ => none

/-- The set that an expression consists of. -/
def set? : Regex → Option CharSet
  | set s => some s
  | _ => none

/-- The alternation of some branches; single characters, and sets alone, make one set. -/
def unite (bs : List Regex) : Regex :=
  match bs with
  | [r] => r
  | _ =>
    match bs.mapM char? with
    | some cs => ofSet (.ofList cs)
    | none =>
      match bs.mapM set? with
      | some sets => ofSet (.unions sets)
      | none => ofBranches bs

/-- What two lists begin with in common. -/
def sharedStart : List Regex → List Regex → List Regex
  | x :: xs, y :: ys => if x = y then x :: sharedStart xs ys else []
  | _, _ => []

/-- What at least two sequences begin with in common, and what is left of each. -/
def factor? (bs : List Regex) : Option (List Regex × List (List Regex)) :=
  let lists := bs.map pieces
  match lists with
  | first :: second :: rest =>
    let shared := (second :: rest).foldl sharedStart first
    if lists.all (2 ≤ ·.length) && !shared.isEmpty then
      some (shared, lists.map (·.drop shared.length))
    else none
  | _ => none

/-- The alternation of some expressions. -/
def alternation (rs : List Regex) : Regex :=
  let bs := rs.flatMap branches
  match factor? bs with
  | some (shared, rests) =>
    concat (shared ++ [unite ((rests.map concat).flatMap branches)])
  | none => unite bs

/-- The repetition of an expression. -/
def repetition (least : Nat) (most : Option Nat) (greedy : Bool) (r : Regex) : Regex :=
  let least := if r.isEmptyOnly then min least 1 else least
  let most := if r.isEmptyOnly then some (min (most.getD 1) 1) else most
  if least = 0 ∧ most = some 0 then empty
  else if least = 1 ∧ most = some 1 then r
  else rep least most greedy r

/-! ### Anchors -/

/-- Whether every match of an expression starts where the text starts. -/
def startsAtTextStart : Regex → Bool
  | assert .textStart => true
  | group _ r => r.startsAtTextStart
  | seq r s => r.startsAtTextStart || r.isEmptyOnly && s.startsAtTextStart
  | alt r s => r.startsAtTextStart && s.startsAtTextStart
  | rep least _ _ r => 0 < least && r.startsAtTextStart
  | _ => false

/-- Whether every match of an expression ends where the text ends. -/
def endsAtTextEnd : Regex → Bool
  | assert .textEnd => true
  | group _ r => r.endsAtTextEnd
  | seq r s => s.endsAtTextEnd || s.isEmptyOnly && r.endsAtTextEnd
  | alt r s => r.endsAtTextEnd && s.endsAtTextEnd
  | rep least _ _ r => 0 < least && r.endsAtTextEnd
  | _ => false

end Regex

end ShaderAssist
