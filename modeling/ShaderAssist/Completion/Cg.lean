import ShaderAssist.Completion.ShaderLab

/-!
# Completion in programs

What is offered in Cg: the variables, functions and types that are visible at the caret, the members of
what stands before it, semantics, and keywords.
-/

namespace ShaderAssist

namespace Completion

variable (c : Caret) (node : NodeId)

/-! ### Symbols -/

/-- The types of a program, or the built-in ones outside programs. -/
def typeItems (global : Option Cg.GlobalId) : List CompletionItem :=
  match global with
  | some id =>
    (((c.symbols.cg.globalAt? id).map Cg.Global.declaredTypes).getD []).map fun type =>
      plain .struct (c.symbols.cg.typeName type)
  | none => c.vocabulary.builtinTypes.map (plain .struct)

/-- The keywords of Cg. -/
def keywordItems : List CompletionItem :=
  if c.settings.keywordCompletion then c.vocabulary.keywords.map keyword else []

/-- A variable. -/
def variableItem (cg : Cg.Table) (kind : CompletionKind) (id : Cg.VariableId) : CompletionItem :=
  detailed kind (cg.variableLabel id) (cg.variableName id)

/-- A function. -/
def functionItem (cg : Cg.Table) (id : Cg.FunctionId) : CompletionItem :=
  detailed .function (cg.functionLabel id) (cg.functionName id)

/-- The variables that are visible at a node, and the functions and types of its program. -/
def symbolItems : List CompletionItem :=
  let cg := c.symbols.cg
  match c.symbols.contextAround? c.tree node with
  | none => typeItems c none
  | some context =>
    let global := (cg.contextAt? context).map Cg.Context.global
    let functions := ((global.bind cg.globalAt?).map Cg.Global.functions).getD []
    (cg.visibleVariables context).map (variableItem cg .variable) ++
      functions.map (functionItem cg) ++ typeItems c global

/-- A number in at least four digits. -/
def fourDigits (n : Nat) : String :=
  String.ofList ((Nat.toDigits 10 n).leftpad 4 '0')

/-- The members of a type; the components of a vector keep their order. -/
def memberItems (cg : Cg.Table) (type : Cg.TypeInfo) : List CompletionItem :=
  type.members.zipIdx.map fun (id, index) =>
    { variableItem cg .field id with
      sortText := if type.ordered then some (fourDigits index) else none }

/-- The members of what stands before an accessor of a unit. -/
def accessorMembers (unit accessor : NodeId) : List CompletionItem :=
  let cg := c.symbols.cg
  match UnitType.ofUnit c.toMatchedDocument c.symbols unit (some accessor) with
  | some u =>
    if u.isArray then [] else ((cg.typeAt? u.type).map (memberItems cg)).getD []
  | none => []

/-- The semantics. -/
def semanticsItems : List CompletionItem :=
  c.vocabulary.semantics.map (plain .enumMember)

/-! ### Parts of patterns -/

/-- What is offered for a part of a declaration. -/
def declarationItems : List CompletionItem :=
  match c.nameOf node with
  | some "type" => typeItems c (c.symbols.globalAround? c.tree node)
  | some "semantics" => semanticsItems c
  | _ => []

/-- The properties of the surrounding shader if a node is outside all blocks of a program; variables
there often stand for properties. -/
def propertyVariables : List CompletionItem :=
  let outermost := do
    let context ← c.symbols.contextAround? c.tree node
    some (← c.symbols.cg.contextAt? context).upper.isNone
  if outermost = some true then
    let shader := (c.symbols.shaderAround? c.tree node).bind c.symbols.shaderAt?
    ((shader.map Shader.properties).getD []).map fun p =>
      detailed .variable p.label p.identifier
  else []

/-- What is offered for a part of a declarator. -/
def declaratorItems : List CompletionItem :=
  match c.nameOf node with
  | some "name" => propertyVariables c node
  | some "semantics" => semanticsItems c
  | _ => []

/-- The symbols at a node that the caret is in or next to. -/
def symbolsUnderCaret : List CompletionItem :=
  if (c.tree.node? node).any fun n => n.contains c.offset then symbolItems c node else []

/-- What is offered for a part of an expression unit. -/
def unitItems : List CompletionItem :=
  match c.nameOf node with
  | some "variable" => symbolsUnderCaret c node
  | some "callee" => symbolsUnderCaret c node
  | some "type" => typeItems c (c.symbols.globalAround? c.tree node)
  | some "accessor" => match c.patternAbove? node with
    | some unit => accessorMembers c unit node
    | none => []
  | _ => []

/-- What is offered for a part of an accessor. -/
def accessorItems : List CompletionItem :=
  match c.nameOf node with
  | some "member" =>
    let place := do
      let accessor ← c.patternAbove? node
      let unit ← c.patternAbove? accessor
      some (unit, accessor)
    match place with
    | some (unit, accessor) => accessorMembers c unit accessor
    | none => []
  | _ => []

/-! ### Blocks -/

/-- What is offered in a block. -/
def blockItems : List CompletionItem :=
  if c.isBlankAt node then keywordItems c ++ symbolItems c node else []

/-- What is offered in a program outside blocks. -/
def programItems : List CompletionItem :=
  if c.isBlankAt node then
    (if c.settings.keywordCompletion then
      ["#pragma", "#include", "#define", "struct"].map keyword else []) ++ symbolItems c node
  else []

end Completion

end ShaderAssist
