import ShaderAssist.Text.Blank
import ShaderAssist.Text.CaseFold
import ShaderAssist.Text.WordChar

/-!
# Sets of characters

The sets that a regular expression can ask one character for. A set is kept as the ranges of its code
points, in ascending order, none touching the next: two sets with the same code points are equal,
and a set with one member is seen to have one.

`ignoringCase` adds to a set every character that differs only in case from one of its members. The
classes of digits, word characters and blanks are closed under that relation, and so are unions and
complements of closed sets.
-/

namespace ShaderAssist

/-- A set of characters. -/
structure CharSet where
  ranges : List (Nat × Nat)
deriving DecidableEq, Repr, Inhabited

namespace CharSet

/-- Whether a character is in the set. -/
def contains (s : CharSet) (c : Char) : Bool :=
  inRanges s.ranges c.toNat

/-! ### Making sets -/

/-- The ranges with one more, joined with those that it meets or touches. -/
def insertRange (lo hi : Nat) : List (Nat × Nat) → List (Nat × Nat)
  | [] => [(lo, hi)]
  | (lo', hi') :: rest =>
    if hi + 1 < lo' then (lo, hi) :: (lo', hi') :: rest
    else if hi' + 1 < lo then (lo', hi') :: insertRange lo hi rest
    else insertRange (min lo lo') (max hi hi') rest

/-- The set of the code points in some ranges. -/
def ofRanges (ranges : List (Nat × Nat)) : CharSet :=
  ⟨ranges.foldr (fun r joined => insertRange r.1 r.2 joined) []⟩

/-- No character. -/
def none : CharSet :=
  ⟨[]⟩

/-- The characters from `lo` to `hi`. -/
def range (lo hi : Char) : CharSet :=
  ⟨[(lo.toNat, hi.toNat)]⟩

/-- The set of one character. -/
def single (c : Char) : CharSet :=
  range c c

/-- The set of some characters. -/
def ofList (cs : List Char) : CharSet :=
  ofRanges (cs.map fun c => (c.toNat, c.toNat))

/-- Decimal digits. -/
def digit : CharSet :=
  ⟨decimalDigitRanges⟩

/-- Word characters. -/
def word : CharSet :=
  ⟨wordCharRanges⟩

/-- Blanks. -/
def blank : CharSet :=
  ⟨blankRanges⟩

/-! ### Operations -/

/-- The largest code point. -/
def maxCode : Nat :=
  0x10FFFF

/-- The ranges between some ranges, from `start` on. -/
def gapsFrom (start : Nat) : List (Nat × Nat) → List (Nat × Nat)
  | [] => if start ≤ maxCode then [(start, maxCode)] else []
  | (lo, hi) :: rest =>
    if start < lo then (start, lo - 1) :: gapsFrom (hi + 1) rest else gapsFrom (hi + 1) rest

/-- The characters that are not in a set. -/
def compl (s : CharSet) : CharSet :=
  ⟨gapsFrom 0 s.ranges⟩

/-- Every character. -/
def all : CharSet :=
  compl none

/-- The characters of some sets. -/
def unions (sets : List CharSet) : CharSet :=
  ofRanges (sets.flatMap ranges)

/-- The characters that are in one of two sets. -/
def union (s t : CharSet) : CharSet :=
  unions [s, t]

/-- The characters that are in both of two sets. -/
def inter (s t : CharSet) : CharSet :=
  compl (union (compl s) (compl t))

/-- The characters of the first set that are not in the second. -/
def diff (s t : CharSet) : CharSet :=
  inter s (compl t)

/-- The characters that are in exactly one of two sets. -/
def symmDiff (s t : CharSet) : CharSet :=
  union (diff s t) (diff t s)

/-- The set with every character that differs only in case from one of its members. -/
def ignoringCase (s : CharSet) : CharSet :=
  let folded := foldRuns.flatMap fun r =>
    (r.points.filter fun n => inRanges s.ranges n || inRanges s.ranges (r.target n)).map r.target
  ofRanges (s.ranges ++ (folded.flatMap caseVariants).map fun n => (n, n))

/-- The characters that differ from one character at most in case. -/
def variants (c : Char) : CharSet :=
  ofRanges ((caseVariants c.toNat).map fun n => (n, n))

/-- The set as it is matched with or without regard to case. -/
def upToCase (s : CharSet) (ignoreCase : Bool) : CharSet :=
  if ignoreCase then s.ignoringCase else s

/-- The only member of a set. -/
def onlyChar? (s : CharSet) : Option Char :=
  match s.ranges with
  | [(lo, hi)] => if lo = hi then some (Char.ofNat lo) else Option.none
  | _ => Option.none

end CharSet

end ShaderAssist
