import ShaderAssist.Text.Position
import ShaderAssist.Text.Slice

/-!
# Documents

A document is a text that can be asked for the slice at a byte offset, and for the position of an
offset and the offset of a position. A line ends at a line feed; a carriage return directly before
the line feed, or at the very end of the text, belongs to the end of the line and not to its content.
-/

namespace ShaderAssist

/-- A text with the table of its slices. -/
structure Document where
  text : List Char
  slices : Array (Option Slice)
  slices_eq : slices = (slicesOf text).2.toArray

namespace Document

/-- The document of a text. -/
def ofList (text : List Char) : Document :=
  ⟨text, (slicesOf text).2.toArray, rfl⟩

/-- The document of a text. -/
def ofString (text : String) : Document :=
  ofList text.toList

instance : Inhabited Document := ⟨ofList []⟩

/-- Length of the document in bytes. -/
def size (d : Document) : Nat :=
  d.slices.size - 1

/-- The text from a byte offset on; none if the offset is inside a character or past the end. -/
def sliceAt (d : Document) (offset : Nat) : Option Slice :=
  (d.slices[offset]?).getD none

/-- The text between two byte offsets; none unless both are boundaries in ascending order. -/
def textBetween (d : Document) (start stop : Nat) : Option (List Char) :=
  if start ≤ stop then (d.sliceAt start).bind fun s => takeBytes (stop - start) s.chars else none

/-! ### Lines -/

/-- The pieces of a text between its line feeds. -/
def splitLines : List Char → List (List Char)
  | [] => [[]]
  | c :: cs =>
    if c = '\n' then [] :: splitLines cs
    else match splitLines cs with
      | [] => [[c]]
      | line :: lines => (c :: line) :: lines

/-- A line without the carriage return at its end. -/
def dropReturn : List Char → List Char
  | [] => []
  | ['\r'] => []
  | c :: cs => c :: dropReturn cs

/-- The lines of a document without their line feeds. -/
def lines (d : Document) : List (List Char) :=
  splitLines d.text

/-- Number of lines. -/
def lineCount (d : Document) : Nat :=
  d.lines.length

/-- The content of a line, without what ends it. -/
def lineAt (d : Document) (line : Nat) : Option (List Char) :=
  (d.lines[line]?).map dropReturn

/-- Number of spaces and tabs a line starts with. -/
def leadingBlanks (line : List Char) : Nat :=
  (line.takeWhile fun c => c == ' ' || c == '\t').length

/-- Byte offset of the first character of a line. -/
def lineStart (d : Document) (line : Nat) : Nat :=
  (d.lines.take line).foldr (fun l n => byteLength l + 1 + n) 0

/-! ### Positions and offsets -/

/-- The position after one more character. -/
def stepPosition (p : Position) (c : Char) : Position :=
  if c = '\n' then ⟨p.line + 1, 0⟩ else ⟨p.line, p.column + 1⟩

/-- The position `offset` bytes into a text that starts at position `p`. An offset inside a character
counts as the start of it, an offset past the end as the end. -/
def locate : List Char → Nat → Position → Position
  | [], _, p => p
  | c :: cs, offset, p =>
    if offset < c.utf8Size then p else locate cs (offset - c.utf8Size) (stepPosition p c)

/-- The position of a byte offset. -/
def positionAt (d : Document) (offset : Nat) : Position :=
  locate d.text offset ⟨0, 0⟩

/-- The byte offset of a position. A line past the last one stands for the end of the text. -/
def offsetAt (d : Document) (p : Position) : Except PositionError Nat :=
  match d.lineAt p.line with
  | none => .ok d.size
  | some content =>
    if p.column ≤ content.length then
      .ok (d.lineStart p.line + byteLength (content.take p.column))
    else .error (.outsideLine p)

/-- The byte offset behind the content of a line, if there is such a line. -/
def lineEnd? (d : Document) (line : Nat) : Option Nat := do
  let content ← d.lineAt line
  (d.offsetAt ⟨line, content.length⟩).toOption

/-- The text of a range of positions. -/
def textOfRange (d : Document) (range : PositionRange) : Except PositionError (List Char) := do
  let start ← d.offsetAt range.start
  let stop ← d.offsetAt range.stop
  if stop < start then .error (.reversed range)
  else .ok ((d.textBetween start stop).getD [])

end Document

end ShaderAssist
