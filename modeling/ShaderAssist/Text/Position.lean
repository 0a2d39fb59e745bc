/-!
# Positions

A position is a line and a column, both counted from zero; columns count characters. Positions are
ordered by line, then by column.
-/

namespace ShaderAssist

/-- A line and a column of a document. -/
structure Position where
  line : Nat
  column : Nat
deriving DecidableEq, Repr, Inhabited

namespace Position

/-- Whether a position comes before another one or is equal to it. -/
def le (p q : Position) : Bool :=
  p.line < q.line || p.line == q.line && p.column ≤ q.column

/-- The text of a position in a message. -/
def describe (p : Position) : String :=
  s!"ShaderPosition \x7b line: {p.line}, pos: {p.column} \x7d"

end Position

/-- A range of positions. -/
structure PositionRange where
  start : Position
  stop : Position
deriving DecidableEq, Repr, Inhabited

/-- Why a position or a range of positions denotes no place in a document. -/
inductive PositionError where
  /-- The column is past the end of its line. -/
  | outsideLine (p : Position)
  /-- The range ends before it starts. -/
  | reversed (range : PositionRange)
deriving DecidableEq, Repr

/-- The text of a position error. -/
def PositionError.message : PositionError → String
  | outsideLine p => s!"Invalid position: Position {p.line}:{p.column} is not in range of line"
  | reversed r =>
    s!"Invalid position: Range start {r.start.describe} is after range end {r.stop.describe}"

end ShaderAssist
