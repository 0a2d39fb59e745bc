import ShaderAssist.Language.Cg

/-!
# The grammar of ShaderLab documents

The blocks of a shader, with Cg and HLSL programs inside them.
-/

namespace ShaderAssist

namespace ShaderLab

/-- A block in braces. -/
def braces (name : String) (patterns : List PatternDef) (collector : Option Collector := none)
    (provider : Option Provider := none) : ScopeDef where
  name := some name
  opening := "\x7b"
  closing := "\x7d"
  patterns := patterns
  collector := collector
  provider := provider

/-- A word with a block in braces, possibly on other lines. -/
def block (name source key : String) (scope : ScopeDef) : PatternDef :=
  { PatternDef.named name [source] with
    ignoreCase := true
    crossLine := true
    scopes := [(key, scope)] }

/-- A tag with its value. -/
def tag : PatternDef :=
  { PatternDef.named "Tag" ["<tag> = <value>"] with
    dictionary := [("tag", .string), ("value", .string)]
    collector := some .tag
    provider := some .tag }

/-- An operation of a stencil block. -/
def stencilOperation : PatternDef :=
  { PatternDef.named "Stencil Operation" ["<operation> < ><value>"] with
    dictionary := [("value", { sources := ["<identifier>", "<number>", "\\[<identifier>\\]"] })] }

/-- The patterns of properties. -/
def propertyPatterns : List (String × PatternDef) := [
  ("properties",
    block "Properties" "Properties {properties}" "properties"
      (braces "Properties" (Cg.references ["property"]))),
  ("property",
    { PatternDef.named "Property" [
        "[<attribute>...]<identifier> (<displayName>, <propType>) = <defaultValue>"] with
      dictionary := [
        ("attribute", .named "Attribute" ["/\\[[^\\]\\n]*\\]/"]),
        ("defaultValue",
          .named "Default Value" [
            "<number>",
            "<string>[ \\\x7b[<textureOption>...]\\\x7d]",
            "(<number>[, <number>...])"]),
        ("displayName", .string),
        ("propType",
          { PatternDef.named "Property Type" ["<typeName>[(<number>[, <number>...])]"] with
            dictionary := [("typeName", { sources := ["/[_a-zA-Z0-9]+/"] })] })]
      collector := some .property
      provider := some .property })]

/-- The patterns of shader, sub shader and pass blocks. -/
def blockPatterns : List (String × PatternDef) := [
  ("fallback",
    { PatternDef.named "Fallback" ["Fallback <name>"] with
      ignoreCase := true
      dictionary := [("name", { sources := ["<string>", "Off"], ignoreCase := true })]
      collector := some .fallback }),
  ("customEditor",
    { PatternDef.named "Custom Editor" ["CustomEditor <name>"] with
      ignoreCase := true
      dictionary := [("name", .string)]
      collector := some .customEditor }),
  ("subShader",
    block "SubShader" "SubShader {subShader}" "subShader"
      (braces "SubShader"
        (Cg.references ["tags", "lod", "pass", "usePass", "grabPass", "stencil", "cgProgram",
          "renderSetup"])
        (some .subShader) (some .renderBlock))),
  ("pass",
    block "Pass" "Pass {pass}" "pass"
      (braces "Pass" (Cg.references ["tags", "stencil", "cgProgram", "renderSetup"])
        (some .pass) (some .renderBlock))),
  ("usePass", { PatternDef.named "UsePass" ["UsePass <string>"] with ignoreCase := true }),
  ("grabPass",
    { PatternDef.named "GrabPass" ["GrabPass \\\x7b[<string>]\\\x7d"] with
      ignoreCase := true
      crossLine := true }),
  ("cgProgram",
    .named "Program" ["{cgProgram}", "{hlslProgram}", "{cgInclude}", "{hlslInclude}"])]

/-- The patterns of tags and render states. -/
def statePatterns : List (String × PatternDef) := [
  ("tags",
    block "Tags" "Tags {tags}" "tags" (braces "Tags" [tag] none (some .tagsScope))),
  ("lod",
    { PatternDef.named "LOD" ["LOD <value>"] with
      ignoreCase := true
      dictionary := [("value", .number)]
      collector := some .lod }),
  ("stencil",
    block "Stencil" "Stencil {stencil}" "stencil" (braces "Stencil" [stencilOperation])),
  ("renderSetup",
    { PatternDef.named "Render Setup" ["<state> < ><value>[[,] <value>...]"] with
      dictionary := [
        ("value",
          { sources := ["<identifier>", "<number>", "<string>", "\\[<identifier>\\]"] })]
      collector := some .renderSetup
      provider := some .renderSetup })]

/-- A shader. -/
def shader : PatternDef :=
  { PatternDef.named "Shader" ["Shader <name> {shader}"] with
    ignoreCase := true
    crossLine := true
    dictionary := [("name", .string)]
    scopes := [
      ("shader",
        braces "Shader"
          (Cg.references ["properties", "subShader", "fallback", "customEditor", "cgProgram"])
          none (some .shaderScope))]
    collector := some .shader }

/-- **The grammar of ShaderLab documents.** -/
def grammar : Grammar where
  name := some "ShaderLab"
  patterns := [shader]
  patternRepository :=
    Keyed.ofEntries (propertyPatterns ++ blockPatterns ++ statePatterns ++ Cg.patterns)
  scopeRepository := Keyed.ofEntries Cg.scopes

end ShaderLab

end ShaderAssist
