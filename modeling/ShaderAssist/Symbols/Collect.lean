import ShaderAssist.Match.Document
import ShaderAssist.Symbols.Basic
import ShaderAssist.Text.Quoted

/-!
# Collecting symbols

The symbols of a matched document. The definitions of a grammar say by their collectors what their matches
declare; the collectors run in document order on the nodes that count (`MatchTree.live`), so a node is
recorded after those above it. A collector that lacks something it needs, such as a name or a surrounding
symbol, changes nothing.
-/

namespace ShaderAssist

/-- Whether two texts are equal up to the case of ASCII letters. -/
def sameIgnoringCase (a b : String) : Bool :=
  a.toLower == b.toLower

namespace Symbols

variable (m : MatchedDocument) (v : Vocabulary) (s : Symbols) (node : NodeId)

/-! ### Shaders -/

/-- Records a shader. -/
def collectShader : Symbols :=
  let (id, s) := s.addShader (unquote (m.word node "name"))
  s.setState node (.shader id)

/-- Records a property of the surrounding shader. -/
def collectProperty : Option Symbols := do
  let shader ← s.shaderAround? m.tree node
  let identifier ← m.word? node "identifier"
  let property := {
    shader := shader
    identifier := identifier
    displayName := unquote (m.word node "displayName")
    type := m.word node "propType"
    defaultValue := m.word node "defaultValue" }
  some (s.modifyShader shader fun x => { x with properties := x.properties ++ [property] })

/-- Records the fallback of the surrounding shader. -/
def collectFallback : Option Symbols := do
  let shader ← s.shaderAround? m.tree node
  let name ← m.word? node "name"
  some (s.modifyShader shader fun x => { x with fallback := some (unquote name) })

/-- Records the custom editor of the surrounding shader. -/
def collectCustomEditor : Option Symbols := do
  let shader ← s.shaderAround? m.tree node
  let name ← m.word? node "name"
  some (s.modifyShader shader fun x => { x with customEditor := some (unquote name) })

/-- Records a sub shader of the surrounding shader. -/
def collectSubShader : Option Symbols := do
  let shader ← s.shaderAround? m.tree node
  let (id, s) := s.addSubShader shader
  some (s.setState node (.subShader id))

/-- Records a pass of the surrounding sub shader. -/
def collectPass : Option Symbols := do
  let subShader ← s.subShaderAround? m.tree node
  let (id, s) := s.addPass subShader
  some (s.setState node (.pass id))

/-- Records the level of detail of the surrounding sub shader. -/
def collectLod : Option Symbols := do
  let subShader ← s.subShaderAround? m.tree node
  let value ← m.word? node "value"
  some (s.modifySubShader subShader fun x => { x with lod := some value })

/-- Adds a tag to a sub shader or pass. -/
def addTag (tag : Tag) : RenderBlock → Symbols
  | .subShader id => s.modifySubShader id fun x => { x with tags := x.tags ++ [tag] }
  | .pass id => s.modifyPass id fun x => { x with tags := x.tags ++ [tag] }

/-- Records a tag of the surrounding pass or sub shader. -/
def collectTag : Option Symbols := do
  let name ← m.word? node "tag"
  let block ← s.renderBlockAround? m.tree node
  some (s.addTag ⟨unquote name, unquote (m.word node "value")⟩ block)

/-- Adds a render setup to a sub shader or pass. The state `Name` gives a pass its name. -/
def addRenderSetup (setup : RenderSetup) : RenderBlock → Symbols
  | .subShader id =>
    s.modifySubShader id fun x => { x with renderSetups := x.renderSetups ++ [setup] }
  | .pass id =>
    s.modifyPass id fun x => { x with
      name := if sameIgnoringCase setup.state "Name" then some (unquote setup.value) else x.name
      renderSetups := x.renderSetups ++ [setup] }

/-- Records a render setup of the surrounding pass or sub shader. -/
def collectRenderSetup : Option Symbols := do
  let state ← m.word? node "state"
  let block ← s.renderBlockAround? m.tree node
  some (s.addRenderSetup ⟨state, " ".intercalate (m.allCaptured node "value")⟩ block)

/-! ### Programs -/

/-- Adds a program to the pass or sub shader it is in, or else to the shader. -/
def addProgram (program : Cg.GlobalId) (shader : Option ShaderId) : Option RenderBlock → Symbols
  | some (.pass id) => s.modifyPass id fun x => { x with programs := x.programs ++ [program] }
  | some (.subShader id) =>
    s.modifySubShader id fun x => { x with programs := x.programs ++ [program] }
  | none => match shader with
    | some id => s.modifyShader id fun x => { x with programs := x.programs ++ [program] }
    | none => s

/-- The include blocks of a shader. -/
def includesOf (shader : Option ShaderId) : List Cg.GlobalId :=
  ((shader.bind s.shaderAt?).map Shader.includes).getD []

/-- A new program at a node, in which the declarations of the include blocks before it in the shader are
visible. -/
def createProgram : Cg.GlobalId × Symbols :=
  let shader := s.shaderAround? m.tree node
  let block := s.renderBlockAround? m.tree node
  let (program, cg) := s.cg.createGlobal v
  let cg := (s.includesOf shader).foldl (fun cg source => cg.importGlobal program source)
    (cg.setShader program shader)
  (program, { s with cg := cg }.addProgram program shader block)

/-- Records a program. -/
def collectProgram : Symbols :=
  let (program, s) := s.createProgram m v node
  s.setState node (.global program)

/-- Records an include block, which is a program that later ones of the shader see. -/
def collectInclude : Symbols :=
  let (program, s) := s.createProgram m v node
  let s := match s.shaderAround? m.tree node with
    | some shader => s.modifyShader shader fun x => { x with includes := x.includes ++ [program] }
    | none => s
  s.setState node (.global program)

/-! ### Declarations of programs -/

/-- The size that stands between the brackets of an array. -/
def arraySizeOf (brackets : String) : String :=
  trimWhere (fun c => c == '[' || c == ']') brackets

/-- A new variable at a node, which has the semantics and the array size that were matched there. -/
def declareVariable (cg : Cg.Table) (type : Cg.TypeId) (name : String) : Cg.VariableId × Cg.Table :=
  let (id, cg) := cg.createVariable type name (m.word? node "semantics")
  match m.word? node "arraySize" with
  | some brackets => (id, cg.setArraySize id (arraySizeOf brackets))
  | none => (id, cg)

/-- Records a struct of the surrounding program. -/
def collectStruct : Option Symbols := do
  let global ← s.globalAround? m.tree node
  let name ← m.word? node "name"
  let (id, cg) := s.cg.addType global name
  some ({ s with cg := cg }.setState node (.type id))

/-- Records a member of the surrounding struct. -/
def collectStructMember : Option Symbols := do
  let owner ← s.typeAround? m.tree node
  let global := (← s.cg.typeAt? owner).global
  let typeName ← m.word? node "type"
  let name ← m.word? node "name"
  let (type, cg) := s.cg.resolveType global typeName
  let (member, cg) := declareVariable m node cg type name
  some { s with cg := cg.addMember owner member }

/-- Records a function of the surrounding program. -/
def collectFunction : Option Symbols := do
  let global ← s.globalAround? m.tree node
  let typeName ← m.word? node "type"
  let name ← m.word? node "name"
  let (type, cg) := s.cg.resolveType global typeName
  let (id, cg) := cg.addFunction global type name (m.word? node "semantics")
  some ({ s with cg := cg }.setState node (.function id))

/-- Records a parameter of the surrounding function. -/
def collectParameter : Option Symbols := do
  let function ← s.functionAround? m.tree node
  let global := (← s.cg.functionAt? function).global
  let typeName ← m.word? node "type"
  let name ← m.word? node "name"
  let (type, cg) := s.cg.resolveType global typeName
  let (parameter, cg) := cg.createVariable type name (m.word? node "semantics")
  some { s with cg := cg.addParameter function parameter }

/-- The function without a body whose definition a block directly belongs to. -/
def functionOfBlock? : Option Cg.FunctionId := do
  let pattern ← (← m.tree.node? node).pattern
  let .function id ← s.state? pattern | none
  let function ← s.cg.functionAt? id
  if function.body.isNone then some id else none

/-- Records a block as a lexical context, which is the body of the function it belongs to. -/
def collectBlock : Option Symbols := do
  let upper ← s.contextAround? m.tree node
  let (block, cg) := s.cg.createContext upper
  let cg := match s.functionOfBlock? m node with
    | some function => cg.setBody function block
    | none => cg
  some ({ s with cg := cg }.setState node (.context block))

/-- Records the type of a declaration. -/
def collectVariable : Option Symbols := do
  let global ← s.globalAround? m.tree node
  let typeName ← m.word? node "type"
  let (type, cg) := s.cg.resolveType global typeName
  some ({ s with cg := cg }.setState node (.type type))

/-- Records a variable with the type of the surrounding declaration. -/
def collectDeclarator : Option Symbols := do
  let type ← s.typeAround? m.tree node
  let context ← s.contextAround? m.tree node
  let name ← m.word? node "name"
  let (id, cg) := declareVariable m node s.cg type name
  some { s with cg := cg.addVariable context id }

/-- Records the variable of a loop in the context that the loop is in. -/
def collectForInit : Option Symbols := do
  let context ← s.contextAround? m.tree node
  let typeName ← m.word? node "type"
  let name ← m.word? node "name"
  let global := (← s.cg.contextAt? context).global
  let (type, cg) := s.cg.resolveType global typeName
  let (id, cg) := cg.createVariable type name none
  some { s with cg := cg.addVariable context id }

/-! ### The symbols of a document -/

/-- What a collector records of a node; none if something it needs is missing. -/
def collect? : Collector → Option Symbols
  | .shader => some (collectShader m s node)
  | .property => collectProperty m s node
  | .fallback => collectFallback m s node
  | .customEditor => collectCustomEditor m s node
  | .subShader => collectSubShader m s node
  | .pass => collectPass m s node
  | .lod => collectLod m s node
  | .tag => collectTag m s node
  | .renderSetup => collectRenderSetup m s node
  | .program => some (collectProgram m v s node)
  | .includeBlock => some (collectInclude m v s node)
  | .struct => collectStruct m s node
  | .structMember => collectStructMember m s node
  | .function => collectFunction m s node
  | .parameter => collectParameter m s node
  | .block => collectBlock m s node
  | .variable => collectVariable m s node
  | .declarator => collectDeclarator m s node
  | .forInit => collectForInit m s node

/-- The symbols after a collector has run on a node. -/
def collect (entry : NodeId × Collector) : Symbols :=
  (s.collect? m v entry.1 entry.2).getD s

/-- The collectors to run, with their nodes, in order. -/
def plan (g : CompiledGrammar) (t : MatchTree) : List (NodeId × Collector) :=
  t.live.filterMap fun id => do
    let collector ← g.collector? (← t.node? id).origin
    some (id, collector)

/-- **The symbols of a matched document.** -/
def ofMatched (g : CompiledGrammar) : Symbols :=
  (plan g m.tree).foldl (collect m v) {}

end Symbols

end ShaderAssist
