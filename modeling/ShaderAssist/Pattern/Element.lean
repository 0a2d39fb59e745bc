/-!
# Elements of a pattern

A pattern is written as one line: words stand for themselves, `<name>` refers to another pattern,
`\x7bname\x7d` to a scope, `/regex/` is a regular expression, and brackets hold an optional part, which
may be repeated if it ends in three points. A backslash takes the next character as it is.
-/

namespace ShaderAssist

/-- One element of a pattern. -/
inductive Element where
  /-- A literal text. -/
  | text (text : String)
  /-- Space between two elements. -/
  | space
  /-- A reference to a pattern. -/
  | reference (name : String)
  /-- A reference to a scope. -/
  | scope (name : String)
  /-- A regular expression. -/
  | regex (source : String)
  /-- A part that may be missing, and may stand several times if `repeats` is set. -/
  | optional (elements : List Element) (repeats : Bool)
deriving Repr, Inhabited

namespace Element

/-- Whether an element is space. -/
def isSpace : Element → Bool
  | space => true
  | _ => false

end Element

/-- Why a text is no pattern. -/
inductive PatternError where
  /-- There is no element. -/
  | emptyPattern
  /-- An optional part is not closed. -/
  | unclosedBracket
  /-- A backslash has no character after it. -/
  | danglingEscape
  /-- A closing character closes nothing. -/
  | unexpected (c : Char)
  /-- An optional part has no element. -/
  | emptyOptional
  /-- A reference is not closed. -/
  | missing (c : Char)
  /-- A reference has no name. -/
  | emptyReference
  /-- A regular expression is not closed. -/
  | unclosedRegex
  /-- A regular expression has no content. -/
  | emptyRegex
deriving DecidableEq, Repr, Inhabited

/-- The text of a pattern error. -/
def PatternError.message : PatternError → String
  | emptyPattern => "Empty pattern"
  | unclosedBracket => "Unclosed ["
  | danglingEscape => "Dangling escape"
  | unexpected c => s!"Unexpected {c}"
  | emptyOptional => "Empty optional"
  | missing c => s!"Missing {c}"
  | emptyReference => "Empty reference"
  | unclosedRegex => "Unclosed regex"
  | emptyRegex => "Empty regex"

end ShaderAssist
