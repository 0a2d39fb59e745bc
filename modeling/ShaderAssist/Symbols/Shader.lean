import ShaderAssist.Symbols.Id

/-!
# Shaders

What a shader declares outside its programs. A shader has sub shaders, a sub shader has passes, and each
of the three can have Cg programs.
-/

namespace ShaderAssist

/-- A property of a shader, which a material gives a value. -/
structure Property where
  shader : ShaderId
  identifier : String
  displayName : String
  type : String
  defaultValue : String
deriving DecidableEq, Repr, Inhabited

/-- The declaration of a property. -/
def Property.label (p : Property) : String :=
  s!"{p.identifier} (\"{p.displayName}\", {p.type}) = {p.defaultValue}"

/-- A tag with its value. -/
structure Tag where
  name : String
  value : String
deriving DecidableEq, Repr, Inhabited

/-- A render state with the values it is set to. -/
structure RenderSetup where
  state : String
  value : String
deriving DecidableEq, Repr, Inhabited

/-- A shader. -/
structure Shader where
  name : String
  properties : List Property := []
  subShaders : List SubShaderId := []
  fallback : Option String := none
  customEditor : Option String := none
  /-- Programs outside sub shaders. -/
  programs : List Cg.GlobalId := []
  /-- Include blocks anywhere in the shader, in order. -/
  includes : List Cg.GlobalId := []
deriving DecidableEq, Repr, Inhabited

/-- A sub shader. -/
structure SubShader where
  shader : ShaderId
  tags : List Tag := []
  renderSetups : List RenderSetup := []
  passes : List PassId := []
  /-- Programs outside passes. -/
  programs : List Cg.GlobalId := []
  lod : Option String := none
deriving DecidableEq, Repr, Inhabited

/-- A pass. -/
structure Pass where
  subShader : SubShaderId
  name : Option String := none
  tags : List Tag := []
  renderSetups : List RenderSetup := []
  programs : List Cg.GlobalId := []
deriving DecidableEq, Repr, Inhabited

end ShaderAssist
