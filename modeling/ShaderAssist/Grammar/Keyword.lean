import ShaderAssist.Regex.Reader
import ShaderAssist.Text.Slice

/-!
# Keywords

A literal text of a pattern. One that ends like a word must not be the start of a longer word, so the
boundary of a word has to follow it. `Keyword.source` writes the same condition as a regular
expression, in which no character of the text has a meaning of its own.
-/

namespace ShaderAssist

/-- A literal text, to be found up to case if `ignoreCase` is set. -/
structure Keyword where
  text : List Char
  ignoreCase : Bool
deriving DecidableEq, Repr, Inhabited

namespace Keyword

/-- Whether the text ends like a word. -/
def endsLikeWord (k : Keyword) : Bool :=
  k.text.getLast?.any fun c => isAlphanumeric c || c == '_'

/-- Whether a character of a document stands for one of the text. -/
def agrees (k : Keyword) (c d : Char) : Bool :=
  if k.ignoreCase then foldCase c == foldCase d else c == d

/-- The start of `document` that stands for `text`, and what follows it. -/
def split? (k : Keyword) : (text document : List Char) → Option (List Char × List Char)
  | [], document => some ([], document)
  | _ :: _, [] => none
  | c :: text, d :: document =>
    if k.agrees c d then (k.split? text document).map fun (found, rest) => (d :: found, rest)
    else none

/-- Number of bytes that a keyword matches at the start of a slice. -/
def matchLength? (k : Keyword) (s : Slice) : Option Nat := do
  let (found, rest) ← k.split? k.text s.chars
  if k.endsLikeWord && found.getLast?.any isWordChar == rest.head?.any isWordChar then none
  else some (byteLength found)

/-- The regular expression of a keyword. -/
def source (k : Keyword) : String :=
  "^" ++ (if k.ignoreCase then "(?i)" else "") ++ Regex.escapeSource k.text ++
    (if k.endsLikeWord then "\\b" else "")

end Keyword

end ShaderAssist
