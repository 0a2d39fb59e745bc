import ShaderAssist.Cg.Lookup
import ShaderAssist.Match.Tree
import ShaderAssist.Symbols.Shader

/-!
# Symbols of a document

The shaders of a document and the declarations of their programs. A node of the match tree can stand for a
symbol; what surrounds a node is found by the symbols of the nodes above it, the nearest first.
-/

namespace ShaderAssist

/-- A symbol that a node stands for. -/
inductive Symbol where
  | shader (id : ShaderId)
  | subShader (id : SubShaderId)
  | pass (id : PassId)
  | global (id : Cg.GlobalId)
  | context (id : Cg.ContextId)
  | function (id : Cg.FunctionId)
  | type (id : Cg.TypeId)
deriving DecidableEq, Repr, Inhabited

/-- What tags and render setups belong to. -/
inductive RenderBlock where
  | subShader (id : SubShaderId)
  | pass (id : PassId)
deriving DecidableEq, Repr, Inhabited

/-- The symbols of a document. -/
structure Symbols where
  shaders : Array Shader := #[]
  subShaders : Array SubShader := #[]
  passes : Array Pass := #[]
  cg : Cg.Table := {}
  /-- The nodes that stand for symbols, the latest first. -/
  states : List (NodeId × Symbol) := []
deriving Repr, Inhabited

namespace Symbols

/-! ### Access -/

/-- The shader with a number. -/
def shaderAt? (s : Symbols) (id : ShaderId) : Option Shader :=
  s.shaders[id.index]?

/-- The sub shader with a number. -/
def subShaderAt? (s : Symbols) (id : SubShaderId) : Option SubShader :=
  s.subShaders[id.index]?

/-- The pass with a number. -/
def passAt? (s : Symbols) (id : PassId) : Option Pass :=
  s.passes[id.index]?

/-- The symbols with a shader changed. -/
def modifyShader (s : Symbols) (id : ShaderId) (f : Shader → Shader) : Symbols :=
  { s with shaders := s.shaders.modify id.index f }

/-- The symbols with a sub shader changed. -/
def modifySubShader (s : Symbols) (id : SubShaderId) (f : SubShader → SubShader) : Symbols :=
  { s with subShaders := s.subShaders.modify id.index f }

/-- The symbols with a pass changed. -/
def modifyPass (s : Symbols) (id : PassId) (f : Pass → Pass) : Symbols :=
  { s with passes := s.passes.modify id.index f }

/-- A new shader. -/
def addShader (s : Symbols) (name : String) : ShaderId × Symbols :=
  (⟨s.shaders.size⟩, { s with shaders := s.shaders.push { name } })

/-- A new sub shader of a shader. -/
def addSubShader (s : Symbols) (shader : ShaderId) : SubShaderId × Symbols :=
  let id : SubShaderId := ⟨s.subShaders.size⟩
  (id, { s with subShaders := s.subShaders.push { shader } }.modifyShader shader fun x =>
    { x with subShaders := x.subShaders ++ [id] })

/-- A new pass of a sub shader. -/
def addPass (s : Symbols) (subShader : SubShaderId) : PassId × Symbols :=
  let id : PassId := ⟨s.passes.size⟩
  (id, { s with passes := s.passes.push { subShader } }.modifySubShader subShader fun x =>
    { x with passes := x.passes ++ [id] })

/-! ### Symbols of nodes -/

/-- Makes a node stand for a symbol. -/
def setState (s : Symbols) (node : NodeId) (symbol : Symbol) : Symbols :=
  { s with states := (node, symbol) :: s.states }

/-- The symbol that a node stands for. -/
def state? (s : Symbols) (node : NodeId) : Option Symbol :=
  s.states.lookup node

/-- The first answer that the symbols of a node and of those above it give. -/
def find {α : Type} (s : Symbols) (t : MatchTree) (node : NodeId) (f : Symbol → Option α) :
    Option α :=
  (node :: t.ancestors node).findSome? fun id => (s.state? id).bind f

/-- The shader that a sub shader belongs to. -/
def shaderOfSubShader? (s : Symbols) (id : SubShaderId) : Option ShaderId :=
  (s.subShaderAt? id).map SubShader.shader

/-- The sub shader that a pass belongs to. -/
def subShaderOfPass? (s : Symbols) (id : PassId) : Option SubShaderId :=
  (s.passAt? id).map Pass.subShader

/-- The shader around a node. -/
def shaderAround? (s : Symbols) (t : MatchTree) (node : NodeId) : Option ShaderId :=
  s.find t node fun
    | .shader id => some id
    | .subShader id => s.shaderOfSubShader? id
    | .pass id => (s.subShaderOfPass? id).bind s.shaderOfSubShader?
    | _ => none

/-- The sub shader around a node. -/
def subShaderAround? (s : Symbols) (t : MatchTree) (node : NodeId) : Option SubShaderId :=
  s.find t node fun
    | .subShader id => some id
    | .pass id => s.subShaderOfPass? id
    | _ => none

/-- The innermost pass or sub shader around a node. -/
def renderBlockAround? (s : Symbols) (t : MatchTree) (node : NodeId) : Option RenderBlock :=
  s.find t node fun
    | .subShader id => some (.subShader id)
    | .pass id => some (.pass id)
    | _ => none

/-- The lexical context around a node; that of a program is its outermost one. -/
def contextAround? (s : Symbols) (t : MatchTree) (node : NodeId) : Option Cg.ContextId :=
  s.find t node fun
    | .context id => some id
    | .global id => (s.cg.globalAt? id).map Cg.Global.context
    | _ => none

/-- The program around a node. -/
def globalAround? (s : Symbols) (t : MatchTree) (node : NodeId) : Option Cg.GlobalId :=
  s.find t node fun
    | .global id => some id
    | .context id => (s.cg.contextAt? id).map Cg.Context.global
    | _ => none

/-- The function around a node. -/
def functionAround? (s : Symbols) (t : MatchTree) (node : NodeId) : Option Cg.FunctionId :=
  s.find t node fun
    | .function id => some id
    | _ => none

/-- The type around a node: the struct or the type of the declaration that it is in. -/
def typeAround? (s : Symbols) (t : MatchTree) (node : NodeId) : Option Cg.TypeId :=
  s.find t node fun
    | .type id => some id
    | _ => none

end Symbols

end ShaderAssist
