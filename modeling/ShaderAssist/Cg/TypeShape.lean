/-!
# Shapes of types

The name of a vector type is the name of a scalar and a number of components, as in `float3`; the name of
a matrix type has numbers of rows and columns, as in `half4x4`. Numbers of components are from 1 to 4.
-/

namespace ShaderAssist

/-- The shape of a vector type, or of a matrix type if it has columns. -/
structure TypeShape where
  scalar : String
  rows : Nat
  columns : Option Nat
deriving DecidableEq, Repr, Inhabited

namespace TypeShape

/-- The name of the type with a shape. -/
def name (s : TypeShape) : String :=
  match s.columns with
  | none => s!"{s.scalar}{s.rows}"
  | some columns => s!"{s.scalar}{s.rows}x{columns}"

/-- The number of components that a digit writes. -/
def dimension? (c : Char) : Option Nat :=
  if '1' ≤ c && c ≤ '4' then some (c.toNat - '0'.toNat) else none

/-- The shape of a scalar and a number of rows, given as characters from last to first. -/
def ofReversed? (columns : Option Nat) : List Char → Option TypeShape
  | [] => none
  | d :: scalar => do
    let rows ← dimension? d
    if scalar.isEmpty then none else some ⟨String.ofList scalar.reverse, rows, columns⟩

/-- The shape that a name has. An `x` before the last digit divides rows and columns if a digit stands
before it too, and else belongs to the scalar. -/
def ofName? (name : String) : Option TypeShape :=
  match name.toList.reverse with
  | c :: 'x' :: d :: scalar =>
    match dimension? c with
    | some columns =>
      if d.isDigit then ofReversed? (some columns) (d :: scalar)
      else ofReversed? none (c :: 'x' :: d :: scalar)
    | none => none
  | cs => ofReversed? none cs

end TypeShape

end ShaderAssist
