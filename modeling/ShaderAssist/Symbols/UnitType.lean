import ShaderAssist.Match.Document
import ShaderAssist.Symbols.Basic

/-!
# Types of expression units

A unit of an expression is a variable or a call with subscripts and members after it. Its type is that of
the variable or of what the call returns, followed through the accessors from left to right. The first
subscript after a variable that is an array selects an element and keeps the type.
-/

namespace ShaderAssist

/-- The type of a part of an expression. -/
structure UnitType where
  type : Cg.TypeId
  /-- Whether it is an array of the type. -/
  isArray : Bool
deriving DecidableEq, Repr, Inhabited

namespace UnitType

/-- The type after an accessor, given by its text. -/
def access (cg : Cg.Table) (u : UnitType) (accessor : String) : Option UnitType :=
  if accessor.toList.head? = some '[' then
    if u.isArray then some { u with isArray := false }
    else ((cg.typeAt? u.type).bind Cg.TypeInfo.element).map fun type => { u with type := type }
  else if u.isArray then none
  else
    let member := trimBlank (String.ofList (accessor.toList.dropWhile (· == '.')))
    (cg.memberType? u.type member).map fun type => { u with type := type }

/-- The type of a variable by its name. -/
def ofVariable (cg : Cg.Table) (context : Cg.ContextId) (name : String) : Option UnitType := do
  let v ← cg.variableAt? (← cg.findVariable context name)
  some ⟨v.type, v.arraySize.isSome⟩

/-- The type of a call: what the function of that name returns, or else the type of that name. -/
def ofCall (cg : Cg.Table) (context : Cg.ContextId) (name : String) : Option UnitType := do
  let global := (← cg.contextAt? context).global
  match cg.findFunction global name with
  | some id => (cg.functionAt? id).map fun f => ⟨f.returnType, false⟩
  | none => (cg.findType global name).map fun type => ⟨type, false⟩

/-- The accessors of a unit that stand before the given one, or all of them. -/
def accessorsBefore (m : MatchedDocument) (unit : NodeId) (last : Option NodeId) : List NodeId :=
  (m.tree.captures unit "accessor").takeWhile fun id => decide (some id ≠ last)

/-- **The type of a unit** before one of its accessors, or of the whole unit. -/
def ofUnit (m : MatchedDocument) (s : Symbols) (unit : NodeId) (last : Option NodeId) :
    Option UnitType := do
  let context ← s.contextAround? m.tree unit
  let start ← match m.captured? unit "variable" with
    | some name => ofVariable s.cg context name
    | none => do ofCall s.cg context (← m.captured? unit "callee")
  (accessorsBefore m unit last).foldlM (fun u id => u.access s.cg (m.trimmedText id)) start

end UnitType

end ShaderAssist
