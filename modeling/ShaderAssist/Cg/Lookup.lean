import ShaderAssist.Cg.Table

/-!
# Looking up Cg symbols

What a name means at a place of a program. A variable is looked for from the innermost context outwards;
the list of all visible variables has an inner one in place of an outer one with the same name.
-/

namespace ShaderAssist

namespace Cg

namespace Table

/-! ### Variables -/

/-- A context and the nearest ones around it, `n` altogether, the innermost first. -/
def chainUpTo (t : Table) : Nat → ContextId → List ContextId
  | 0, _ => []
  | n + 1, id =>
    match t.contextAt? id with
    | none => []
    | some c => id :: (match c.upper with
      | some upper => chainUpTo t n upper
      | none => [])

/-- A context and those around it, the innermost first. -/
def chain (t : Table) (id : ContextId) : List ContextId :=
  t.chainUpTo t.contexts.size id

/-- The variables of a context in order of declaration. -/
def variablesOf (t : Table) (id : ContextId) : List VariableId :=
  ((t.contextAt? id).map Context.vars).getD []

/-- The variable that a name means in a context. -/
def findVariable (t : Table) (context : ContextId) (name : String) : Option VariableId :=
  (t.chain context).findSome? fun c => (t.variablesOf c).find? (t.variableNamed name)

/-- The visible variables after one more declaration: it takes the place of the one with its name. -/
def declare (t : Table) : List VariableId → VariableId → List VariableId
  | [], id => [id]
  | first :: rest, id =>
    if (t.variableAt? first).map Variable.name = (t.variableAt? id).map Variable.name then id :: rest
    else first :: t.declare rest id

/-- The variables that are visible in a context, those of outer contexts first. -/
def visibleVariables (t : Table) (context : ContextId) : List VariableId :=
  ((t.chain context).reverse.flatMap t.variablesOf).foldl t.declare []

/-! ### Functions and members -/

/-- The function of a program with a name. -/
def findFunction (t : Table) (global : GlobalId) (name : String) : Option FunctionId :=
  (t.globalAt? global).bind fun g => g.functions.find? (t.functionNamed name)

/-- The names for the components of a vector, of which those of one set can be combined. -/
def swizzleSets : List (List Char) :=
  [['x', 'y', 'z', 'w'], ['r', 'g', 'b', 'a'], ['s', 't', 'p', 'q']]

/-- Whether some letters all name one of the first `count` components in one set. -/
def isSwizzle (count : Nat) (letters : List Char) : Bool :=
  swizzleSets.any fun set => letters.all fun c => (set.take count).contains c

/-- The type of a combination of components of a type. -/
def swizzleType? (t : Table) (info : TypeInfo) (member : String) : Option TypeId := do
  let length := member.utf8ByteSize
  if !info.ordered || length == 0 || 4 < length then none
  if !isSwizzle info.members.length member.toList then none
  let scalar ← info.element
  if length == 1 then some scalar
  else t.findType info.global ((← t.typeAt? scalar).name ++ toString length)

/-- The type of a member of a type, or of a combination of components. -/
def memberType? (t : Table) (type : TypeId) (member : String) : Option TypeId := do
  let info ← t.typeAt? type
  match info.members.find? (t.variableNamed member) with
  | some id => (t.variableAt? id).map Variable.type
  | none => t.swizzleType? info member

/-! ### Names and labels -/

/-- The name of a type. -/
def typeName (t : Table) (id : TypeId) : String :=
  ((t.typeAt? id).map TypeInfo.name).getD ""

/-- The name of a variable. -/
def variableName (t : Table) (id : VariableId) : String :=
  ((t.variableAt? id).map Variable.name).getD ""

/-- The name of a function. -/
def functionName (t : Table) (id : FunctionId) : String :=
  ((t.functionAt? id).map Function.name).getD ""

/-- A semantics after a declaration. -/
def semanticsLabel : Option String → String
  | some semantics => s!" : {semantics}"
  | none => ""

/-- The declaration of a variable. -/
def variableLabel (t : Table) (id : VariableId) : String :=
  match t.variableAt? id with
  | none => ""
  | some v =>
    s!"{t.typeName v.type} {v.name}" ++
      (match v.arraySize with
        | some size => s!"[{size}]"
        | none => "") ++ semanticsLabel v.semantics

/-- The declaration of a function. -/
def functionLabel (t : Table) (id : FunctionId) : String :=
  match t.functionAt? id with
  | none => ""
  | some f =>
    s!"{t.typeName f.returnType} {f.name}(" ++
      ", ".intercalate (f.parameters.map t.variableLabel) ++ ")" ++ semanticsLabel f.semantics

end Table

end Cg

end ShaderAssist
