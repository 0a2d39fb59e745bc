import ShaderAssist.Regex.CharSet

/-!
# Ranges of bytes

A set of characters as sequences of byte ranges: a text of one character of the set has, in UTF-8, one
byte in each range of one of the sequences, in order. A range of code points is cut in two until all
its members have the same number of bytes and each byte runs through a range of its own.
-/

namespace ShaderAssist

/-- The bytes from `lo` to `hi`. -/
structure ByteRange where
  lo : Nat
  hi : Nat
deriving DecidableEq, Repr, Inhabited

/-- The bytes of a code point in UTF-8. -/
def utf8Bytes (n : Nat) : List Nat :=
  let tail := fun k : Nat => 0x80 + n / k % 0x40
  if n < 0x80 then [n]
  else if n < 0x800 then [0xC0 + n / 0x40, tail 1]
  else if n < 0x10000 then [0xE0 + n / 0x1000, tail 0x40, tail 1]
  else [0xF0 + n / 0x40000, tail 0x1000, tail 0x40, tail 1]

/-- Where a range of code points has to be cut because its members differ in their number of bytes:
the last code point before the cut. -/
def widthCut? (lo hi : Nat) : Option Nat :=
  [0x7F, 0x7FF, 0xFFFF].find? fun last => lo ≤ last && last < hi

/-- Where a range of code points of several bytes has to be cut because a byte does not run through a
range of its own: the last code point before the cut. -/
def carryCut? (lo hi : Nat) : Option Nat :=
  [0x40, 0x1000, 0x40000].findSome? fun block =>
    if lo / block = hi / block then none
    else if lo % block ≠ 0 then some (lo / block * block + (block - 1))
    else if hi % block ≠ block - 1 then some (hi / block * block - 1)
    else none

/-- The byte sequences of a range of code points without surrogates. -/
def byteSequences (lo hi : Nat) : List (List ByteRange) :=
  let cut := (widthCut? lo hi).or (if hi < 0x80 then none else carryCut? lo hi)
  match cut with
  | some last =>
    if lo ≤ last ∧ last < hi then byteSequences lo last ++ byteSequences (last + 1) hi else []
  | none => [List.zipWith ByteRange.mk (utf8Bytes lo) (utf8Bytes hi)]
termination_by hi - lo

/-- The byte sequences of a set of characters, in ascending order. -/
def CharSet.byteSequences (s : CharSet) : List (List ByteRange) :=
  s.ranges.flatMap fun (lo, hi) =>
    [(lo, min hi 0xD7FF), (max lo 0xE000, hi)].flatMap fun (lo, hi) =>
      if lo ≤ hi then ShaderAssist.byteSequences lo hi else []

/-- Whether all characters of a set are in ASCII. -/
def CharSet.isAscii (s : CharSet) : Bool :=
  s.ranges.all (·.2 < 0x80)

end ShaderAssist
