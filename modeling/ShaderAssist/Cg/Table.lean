import ShaderAssist.Cg.TypeShape
import ShaderAssist.Symbols.Id
import ShaderAssist.Vocabulary

/-!
# Tables of Cg symbols

What Cg programs declare, kept in one table. Types, variables, functions, lexical contexts and programs
refer to each other by number, in order of creation. A program has an outermost context; every other
context lies in an upper one of the same program.

Types of a program are declared on demand: a vector or matrix type of a known scalar when its name is
asked for, with the scalar and the row type it needs. A name without a meaning gets a type of its own
that is not declared, so that it is not found again.
-/

namespace ShaderAssist

namespace Cg

/-- A type. -/
structure TypeInfo where
  name : String
  members : List VariableId := []
  /-- Whether the members are components of a vector, which can be combined. -/
  ordered : Bool := false
  /-- The type of what a subscript selects. -/
  element : Option TypeId := none
  global : GlobalId
deriving DecidableEq, Repr, Inhabited

/-- A variable, a parameter or a member. -/
structure Variable where
  type : TypeId
  name : String
  semantics : Option String := none
  /-- What stands between the brackets of an array. -/
  arraySize : Option String := none
  context : Option ContextId := none
deriving DecidableEq, Repr, Inhabited

/-- A function. -/
structure Function where
  returnType : TypeId
  name : String
  parameters : List VariableId := []
  semantics : Option String := none
  global : GlobalId
  body : Option ContextId := none
deriving DecidableEq, Repr, Inhabited

/-- A lexical context. -/
structure Context where
  upper : Option ContextId
  contexts : List ContextId := []
  vars : List VariableId := []
  global : GlobalId
deriving DecidableEq, Repr, Inhabited

/-- A program. -/
structure Global where
  /-- The outermost context. -/
  context : ContextId
  declaredTypes : List TypeId := []
  functions : List FunctionId := []
  shader : Option ShaderId := none
deriving DecidableEq, Repr, Inhabited

/-- The symbols of all programs. -/
structure Table where
  types : Array TypeInfo := #[]
  vars : Array Variable := #[]
  functions : Array Function := #[]
  contexts : Array Context := #[]
  globals : Array Global := #[]
  /-- The scalars that have vectors and matrices. -/
  vectorScalars : List String := []
deriving Repr, Inhabited

namespace Table

/-! ### Access -/

/-- The type with a number. -/
def typeAt? (t : Table) (id : TypeId) : Option TypeInfo :=
  t.types[id.index]?

/-- The variable with a number. -/
def variableAt? (t : Table) (id : VariableId) : Option Variable :=
  t.vars[id.index]?

/-- The function with a number. -/
def functionAt? (t : Table) (id : FunctionId) : Option Function :=
  t.functions[id.index]?

/-- The context with a number. -/
def contextAt? (t : Table) (id : ContextId) : Option Context :=
  t.contexts[id.index]?

/-- The program with a number. -/
def globalAt? (t : Table) (id : GlobalId) : Option Global :=
  t.globals[id.index]?

/-- The numbers of all programs. -/
def globalIds (t : Table) : List GlobalId :=
  (List.range t.globals.size).map GlobalId.mk

/-- The table with a type changed. -/
def modifyType (t : Table) (id : TypeId) (f : TypeInfo → TypeInfo) : Table :=
  { t with types := t.types.modify id.index f }

/-- The table with a variable changed. -/
def modifyVariable (t : Table) (id : VariableId) (f : Variable → Variable) : Table :=
  { t with vars := t.vars.modify id.index f }

/-- The table with a function changed. -/
def modifyFunction (t : Table) (id : FunctionId) (f : Function → Function) : Table :=
  { t with functions := t.functions.modify id.index f }

/-- The table with a context changed. -/
def modifyContext (t : Table) (id : ContextId) (f : Context → Context) : Table :=
  { t with contexts := t.contexts.modify id.index f }

/-- The table with a program changed. -/
def modifyGlobal (t : Table) (id : GlobalId) (f : Global → Global) : Table :=
  { t with globals := t.globals.modify id.index f }

/-- Whether a type has a name. -/
def typeNamed (t : Table) (name : String) (id : TypeId) : Bool :=
  (t.typeAt? id).any fun info => info.name == name

/-- Whether a variable has a name. -/
def variableNamed (t : Table) (name : String) (id : VariableId) : Bool :=
  (t.variableAt? id).any fun v => v.name == name

/-- Whether a function has a name. -/
def functionNamed (t : Table) (name : String) (id : FunctionId) : Bool :=
  (t.functionAt? id).any fun f => f.name == name

/-! ### Variables -/

/-- A new variable that is in no context yet. -/
def createVariable (t : Table) (type : TypeId) (name : String) (semantics : Option String) :
    VariableId × Table :=
  (⟨t.vars.size⟩,
    { t with vars := t.vars.push { type, name, semantics } })

/-- Makes a variable an array. -/
def setArraySize (t : Table) (id : VariableId) (size : String) : Table :=
  t.modifyVariable id fun v => { v with arraySize := some size }

/-- Declares a variable in a context. -/
def addVariable (t : Table) (context : ContextId) (id : VariableId) : Table :=
  (t.modifyContext context fun c => { c with vars := c.vars ++ [id] }).modifyVariable id
    fun v => { v with context := some context }

/-- Gives a type one more member. -/
def addMember (t : Table) (type : TypeId) (member : VariableId) : Table :=
  t.modifyType type fun info => { info with members := info.members ++ [member] }

/-! ### Types -/

/-- The declared type of a program with a name. -/
def findType (t : Table) (global : GlobalId) (name : String) : Option TypeId :=
  (t.globalAt? global).bind fun g => g.declaredTypes.find? (t.typeNamed name)

/-- Appends a type. -/
def pushType (t : Table) (info : TypeInfo) : TypeId × Table :=
  (⟨t.types.size⟩, { t with types := t.types.push info })

/-- Declares a type in a program, unless one with that name is declared. -/
def addType (t : Table) (global : GlobalId) (name : String) : TypeId × Table :=
  match t.findType global name with
  | some id => (id, t)
  | none =>
    let (id, t) := t.pushType { name, global }
    (id, t.modifyGlobal global fun g => { g with declaredTypes := g.declaredTypes ++ [id] })

/-- The names of the components of a vector. -/
def componentNames : List String :=
  ["x", "y", "z", "w"]

/-- New variables of a type with the given names. -/
def createVariables (t : Table) (type : TypeId) : List String → List VariableId × Table
  | [] => ([], t)
  | name :: names =>
    let (id, t) := t.createVariable type name none
    let (ids, t) := t.createVariables type names
    (id :: ids, t)

/-- Declares a vector type with the scalar type it needs, unless it is declared. -/
def addVector (t : Table) (global : GlobalId) (scalar : String) (count : Nat) : TypeId × Table :=
  let name := (TypeShape.mk scalar count none).name
  match t.findType global name with
  | some id => (id, t)
  | none =>
    let (scalarType, t) := t.addType global scalar
    let (id, t) := t.addType global name
    let (members, t) := t.createVariables scalarType (componentNames.take count)
    (id, t.modifyType id fun info =>
      { info with members := members, ordered := true, element := some scalarType })

/-- Declares a matrix type with the scalar and row types it needs, unless it is declared. -/
def addMatrix (t : Table) (global : GlobalId) (scalar : String) (rows columns : Nat) :
    TypeId × Table :=
  let name := (TypeShape.mk scalar rows (some columns)).name
  match t.findType global name with
  | some id => (id, t)
  | none =>
    let (_, t) := t.addType global scalar
    let (row, t) := t.addVector global scalar columns
    let (id, t) := t.addType global name
    (id, t.modifyType id fun info => { info with element := some row })

/-- Declares the type with a shape, unless it is declared. -/
def addShape (t : Table) (global : GlobalId) (shape : TypeShape) : TypeId × Table :=
  match shape.columns with
  | none => t.addVector global shape.scalar shape.rows
  | some columns => t.addMatrix global shape.scalar shape.rows columns

/-- The shape that a name has over a known scalar. -/
def shapeOf? (t : Table) (name : String) : Option TypeShape :=
  (TypeShape.ofName? name).filter fun shape => t.vectorScalars.contains shape.scalar

/-- Declares a built-in type. -/
def addBuiltin (t : Table) (global : GlobalId) (name : String) : Table :=
  if (t.findType global name).isSome then t
  else match t.shapeOf? name with
    | some shape => (t.addShape global shape).2
    | none => (t.addType global name).2

/-- The type that a name means in a program: a declared one, else a vector or matrix of a known scalar,
else a new type that is not declared and has a question mark after its name. -/
def resolveType (t : Table) (global : GlobalId) (name : String) : TypeId × Table :=
  match t.findType global name with
  | some id => (id, t)
  | none => match t.shapeOf? name with
    | some shape => t.addShape global shape
    | none => t.pushType { name := name ++ "?", global }

/-- Whether a type stands for a name without a meaning. -/
def isPlaceholder (t : Table) (id : TypeId) : Bool :=
  (t.typeAt? id).any fun info => info.name.toList.getLast? == some '?'

/-! ### Contexts, functions and programs -/

/-- A new context inside another one. -/
def createContext (t : Table) (upper : ContextId) : ContextId × Table :=
  match t.contextAt? upper with
  | none => (⟨t.contexts.size⟩, t)
  | some u =>
    let id : ContextId := ⟨t.contexts.size⟩
    (id, { t with contexts := t.contexts.push { upper := some upper, global := u.global } }
      |>.modifyContext upper fun c => { c with contexts := c.contexts ++ [id] })

/-- The scalars with the ones of a vocabulary added. -/
def addScalars (known : List String) (v : Vocabulary) : List String :=
  ((v.scalarTypes ++ v.types).filter v.isVectorScalar).foldl
    (fun known scalar => if known.contains scalar then known else known ++ [scalar]) known

/-- A new program, in which the built-in types of a vocabulary are declared. -/
def createGlobal (t : Table) (v : Vocabulary) : GlobalId × Table :=
  let global : GlobalId := ⟨t.globals.size⟩
  let context : ContextId := ⟨t.contexts.size⟩
  let t := { t with
    contexts := t.contexts.push { upper := none, global := global }
    globals := t.globals.push { context := context }
    vectorScalars := addScalars t.vectorScalars v }
  (global, v.builtinTypes.foldl (fun t name => t.addBuiltin global name) t)

/-- A new function of a program. -/
def addFunction (t : Table) (global : GlobalId) (returnType : TypeId) (name : String)
    (semantics : Option String) : FunctionId × Table :=
  let id : FunctionId := ⟨t.functions.size⟩
  (id, { t with functions := t.functions.push { returnType, name, semantics, global } }
    |>.modifyGlobal global fun g => { g with functions := g.functions ++ [id] })

/-- Gives a function one more parameter, which is also a variable of its body if it has one. -/
def addParameter (t : Table) (function : FunctionId) (parameter : VariableId) : Table :=
  let t := t.modifyFunction function fun f => { f with parameters := f.parameters ++ [parameter] }
  match (t.functionAt? function).bind Function.body with
  | some body => t.addVariable body parameter
  | none => t

/-- Makes a context the body of a function; the parameters become variables of it. -/
def setBody (t : Table) (function : FunctionId) (context : ContextId) : Table :=
  let t := t.modifyFunction function fun f => { f with body := some context }
  (((t.functionAt? function).map Function.parameters).getD []).foldl
    (fun t parameter => t.addVariable context parameter) t

/-- Links a program to a shader. -/
def setShader (t : Table) (global : GlobalId) (shader : Option ShaderId) : Table :=
  t.modifyGlobal global fun g => { g with shader := shader }

/-! ### Importing a program -/

/-- A list with an element appended unless it is in the list. -/
def appendNew {α : Type} [DecidableEq α] (xs : List α) (x : α) : List α :=
  if x ∈ xs then xs else xs ++ [x]

/-- Declares a type of another program, unless a type with its name is declared. -/
def importType (global : GlobalId) (t : Table) (id : TypeId) : Table :=
  match t.typeAt? id with
  | none => t
  | some info =>
    if (t.findType global info.name).isSome then t
    else t.modifyGlobal global fun g => { g with declaredTypes := g.declaredTypes ++ [id] }

/-- Makes the types, functions and outermost variables of a program visible in another one. -/
def importGlobal (t : Table) (global source : GlobalId) : Table :=
  match t.globalAt? source with
  | none => t
  | some s =>
    let vars := ((t.contextAt? s.context).map Context.vars).getD []
    let t := s.declaredTypes.foldl (importType global) t
    let t := t.modifyGlobal global fun g => { g with functions := s.functions.foldl appendNew g.functions }
    match t.globalAt? global with
    | none => t
    | some g => t.modifyContext g.context fun c =>
        { c with vars := vars.foldl appendNew c.vars }

end Table

end Cg

end ShaderAssist
