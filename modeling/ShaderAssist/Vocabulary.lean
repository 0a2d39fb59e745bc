import ShaderAssist.Json.Reader

/-!
# Vocabularies

The fixed words of ShaderLab and Cg: names of types, keywords, and the values of tags and render states.
-/

namespace ShaderAssist

/-- A vocabulary. Tables are in ascending order of their keys. -/
structure Vocabulary where
  /-- Scalars that come with vectors and square matrices. -/
  scalarTypes : List String
  types : List String
  samplerTypes : List String
  keywords : List String
  propertyTypes : List String
  pragmas : List String
  semantics : List String
  subShaderTags : List (String × List String)
  passTags : List (String × List String)
  renderStates : List (String × List String)
deriving DecidableEq, Repr, Inhabited

namespace Vocabulary

/-- The numbers of components of a vector. -/
def dimensions : List Nat :=
  [1, 2, 3, 4]

/-- The names of all built-in types: scalars, other types, vectors, matrices, samplers. -/
def builtinTypes (v : Vocabulary) : List String :=
  v.scalarTypes ++ v.types ++
    v.scalarTypes.flatMap (fun scalar => dimensions.map fun n => s!"{scalar}{n}") ++
    v.scalarTypes.flatMap (fun scalar => dimensions.map fun n => s!"{scalar}{n}x{n}") ++
    v.samplerTypes

/-- Whether there are vectors and matrices of a type. -/
def isVectorScalar (v : Vocabulary) (name : String) : Bool :=
  name != "void" && (v.scalarTypes.contains name || v.types.contains name)

/-- The names of tags with their values, in a pass or in a sub shader. -/
def tags (v : Vocabulary) (inPass : Bool) : List (String × List String) :=
  if inPass then v.passTags else v.subShaderTags

/-- The values of a tag. -/
def tagValues? (v : Vocabulary) (tag : String) (inPass : Bool) : Option (List String) :=
  (v.tags inPass).lookup tag

/-- The keys of a vocabulary in JSON. -/
def keys : List String :=
  ["scalarTypes", "types", "samplerTypes", "keywords", "propertyTypes", "pragmas", "semantics",
    "subShaderTags", "passTags", "renderStates"]

/-- The vocabulary that a JSON value gives. Nothing may be missing. -/
def ofJson? (j : Json) : Option Vocabulary := do
  match (← j.record? keys).mapM id with
  | some [scalars, types, samplers, keywords, properties, pragmas, semantics, subShader, pass,
      states] =>
    some {
      scalarTypes := ← scalars.strings?
      types := ← types.strings?
      samplerTypes := ← samplers.strings?
      keywords := ← keywords.strings?
      propertyTypes := ← properties.strings?
      pragmas := ← pragmas.strings?
      semantics := ← semantics.strings?
      subShaderTags := ← subShader.table?
      passTags := ← pass.table?
      renderStates := ← states.table? }
  | _ => none

/-- The vocabulary that a JSON text gives. -/
def ofString? (text : String) : Option Vocabulary :=
  (Json.ofString? text).bind ofJson?

/-- **The vocabulary of ShaderLab and Cg.** -/
def builtin : Vocabulary where
  scalarTypes := ["float", "half", "int", "fixed"]
  types := ["bool", "uint", "double", "void"]
  samplerTypes := ["sampler1D", "sampler2D", "sampler3D", "samplerCUBE", "samplerRECT"]
  keywords := ["if", "else", "for", "while", "do", "return", "break", "continue", "discard", "struct",
    "static", "const", "uniform", "inline"]
  propertyTypes := ["Range", "Float", "Int", "Integer", "Color", "Vector", "2D", "2DArray", "3D", "Cube",
    "CubeArray"]
  pragmas := ["vertex", "fragment", "geometry", "hull", "domain", "surface", "target", "require",
    "only_renderers", "exclude_renderers", "multi_compile", "multi_compile_local",
    "multi_compile_fwdbase", "multi_compile_fwdadd", "multi_compile_fog",
    "multi_compile_instancing", "shader_feature", "shader_feature_local", "skip_variants",
    "instancing_options", "hardware_tier_variants", "enable_d3d11_debug_symbols",
    "glsl_no_auto_normalization", "fragmentoption"]
  semantics := ["POSITION", "SV_POSITION", "NORMAL", "TANGENT", "COLOR", "COLOR0", "COLOR1", "TEXCOORD0",
    "TEXCOORD1", "TEXCOORD2", "TEXCOORD3", "TEXCOORD4", "TEXCOORD5", "TEXCOORD6", "TEXCOORD7",
    "BLENDWEIGHTS", "BLENDINDICES", "PSIZE", "FOG", "VPOS", "VFACE", "SV_Target", "SV_Target0",
    "SV_Target1", "SV_Target2", "SV_Target3", "SV_Depth", "SV_VertexID", "SV_InstanceID",
    "SV_IsFrontFace"]
  subShaderTags := Keyed.ofEntries [
    ("CanUseSpriteAtlas", ["True", "False"]),
    ("DisableBatching", ["True", "False", "LODFading"]),
    ("ForceNoShadowCasting", ["True", "False"]),
    ("IgnoreProjector", ["True", "False"]),
    ("PreviewType", ["Sphere", "Plane", "Skybox", "Cube"]),
    ("Queue", ["Background", "Geometry", "AlphaTest", "Transparent", "Overlay"]),
    ("RenderPipeline", ["UniversalPipeline", "HDRenderPipeline"]),
    ("RenderType", ["Opaque", "Transparent", "TransparentCutout", "Background", "Overlay", "TreeOpaque",
      "TreeTransparentCutout", "TreeBillboard", "Grass", "GrassBillboard"]),
    ("RequireOptions", ["SoftVegetation"])]
  passTags := Keyed.ofEntries [
    ("LightMode", ["Always", "ForwardBase", "ForwardAdd", "Deferred", "ShadowCaster", "MotionVectors",
      "PrepassBase", "PrepassFinal", "Vertex", "VertexLMRGBM", "VertexLM", "UniversalForward",
      "DepthOnly", "Meta"]),
    ("PassFlags", ["OnlyDirectional"]),
    ("RequireOptions", ["SoftVegetation"])]
  renderStates := Keyed.ofEntries [
    ("AlphaTest", ["Less", "Greater", "LEqual", "GEqual", "Equal", "NotEqual", "Always", "Never", "Off"]),
    ("AlphaToMask", ["On", "Off"]),
    ("Blend", ["Off", "One", "Zero", "SrcColor", "SrcAlpha", "DstColor", "DstAlpha", "OneMinusSrcColor",
      "OneMinusSrcAlpha", "OneMinusDstColor", "OneMinusDstAlpha"]),
    ("BlendOp", ["Add", "Sub", "RevSub", "Min", "Max"]),
    ("ColorMask", ["R", "G", "B", "A", "RGB", "RGBA", "0"]),
    ("ColorMaterial", ["AmbientAndDiffuse", "Emission"]),
    ("Conservative", ["True", "False"]),
    ("Cull", ["Back", "Front", "Off"]),
    ("Lighting", ["On", "Off"]),
    ("Name", []),
    ("Offset", []),
    ("SeparateSpecular", ["On", "Off"]),
    ("ZClip", ["True", "False"]),
    ("ZTest", ["Less", "Greater", "LEqual", "GEqual", "Equal", "NotEqual", "Always", "Never"]),
    ("ZWrite", ["On", "Off"])]

end Vocabulary

end ShaderAssist
