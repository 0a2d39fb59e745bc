import ShaderAssist.Text.CodeRange

/-!
# Blank characters

The characters with the property White_Space, and texts without blanks at their ends.
-/

namespace ShaderAssist

/-- Code points with the property White_Space, in ascending ranges. -/
def blankRanges : List (Nat × Nat) := [
    (0x9, 0xD), (0x20, 0x20), (0x85, 0x85), (0xA0, 0xA0), (0x1680, 0x1680), (0x2000, 0x200A),
    (0x2028, 0x2029), (0x202F, 0x202F), (0x205F, 0x205F), (0x3000, 0x3000)]

/-- Whether a character is blank. -/
def isBlank (c : Char) : Bool :=
  inRanges blankRanges c.toNat

/-- A text without the characters at both ends that satisfy `p`. -/
def trimWhere (p : Char → Bool) (text : String) : String :=
  let front := text.toList.dropWhile p
  String.ofList (front.reverse.dropWhile p).reverse

/-- A text without the blanks at both ends. -/
def trimBlank (text : String) : String :=
  trimWhere isBlank text

end ShaderAssist
