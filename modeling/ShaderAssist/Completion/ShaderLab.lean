import ShaderAssist.Completion.Caret
import ShaderAssist.Symbols.Collect

/-!
# Completion in shaders

What is offered outside programs: the blocks of a shader, tags and render states with their values, types
of properties.
-/

namespace ShaderAssist

namespace Completion

/-! ### Kinds of items -/

/-- An item that inserts a text. -/
def snippet (label insertText : String) : CompletionItem where
  label := label
  kind := .snippet
  insertText := some insertText

/-- A keyword. -/
def keyword (label : String) : CompletionItem where
  label := label
  kind := .keyword

/-- An item with a detail. -/
def detailed (kind : CompletionKind) (detail label : String) : CompletionItem where
  label := label
  kind := kind
  detail := some detail

/-- An item without more. -/
def plain (kind : CompletionKind) (label : String) : CompletionItem where
  label := label
  kind := kind

variable (c : Caret) (node : NodeId)

/-! ### Tags and render states -/

/-- Whether a node is in a pass, not directly in a sub shader. -/
def isInPass : Bool :=
  match c.symbols.renderBlockAround? c.tree node with
  | some (.pass _) => true
  | _ => false

/-- The names of tags at a node. -/
def tagNames : List CompletionItem :=
  (c.vocabulary.tags (isInPass c node)).map fun entry => detailed .property "Tag" entry.1

/-- The values of a tag at a node. -/
def tagValues (tag : String) : List CompletionItem :=
  ((c.vocabulary.tagValues? tag (isInPass c node)).getD []).map (detailed .enumMember tag)

/-- The names of render states. -/
def renderStateNames : List CompletionItem :=
  c.vocabulary.renderStates.map fun entry => detailed .property "Render state" entry.1

/-- The values of a render state; the case of its name does not count. -/
def renderStateValues (state : String) : List CompletionItem :=
  match c.vocabulary.renderStates.find? fun entry => sameIgnoringCase entry.1 state with
  | some (name, values) => values.map (detailed .enumMember name)
  | none => []

/-- The name of a tag that is closed before the caret, so that its value comes next. -/
def closedTag? (tag : NodeId) : Option String :=
  match c.tree.node? tag with
  | none => none
  | some n =>
    let text := c.trimmedText tag
    if n.isMatched && decide (2 ≤ text.length) && text.toList.getLast? == some '"' &&
        decide (n.stop ≤ c.offset) then
      some (unquote text)
    else none

/-! ### Blocks -/

/-- What is offered in a shader. -/
def shaderScopeItems : List CompletionItem :=
  if c.isBlankAt node && c.settings.keywordCompletion then
    [snippet "Properties" "Properties\n\x7b\n\x7d",
      snippet "SubShader" "SubShader\n\x7b\n\x7d",
      snippet "Fallback" "Fallback \"\"",
      snippet "CustomEditor" "CustomEditor \"\"",
      snippet "CGINCLUDE" "CGINCLUDE\nENDCG"]
  else []

/-- The keywords of a pass. -/
def passKeywords : List CompletionItem :=
  ["Tags", "Stencil"].map keyword ++
    [snippet "CGPROGRAM" "CGPROGRAM\nENDCG", snippet "HLSLPROGRAM" "HLSLPROGRAM\nENDHLSL"]

/-- The keywords of a sub shader. -/
def subShaderKeywords : List CompletionItem :=
  ["Tags", "LOD", "UsePass", "GrabPass", "Stencil"].map keyword ++
    [snippet "Pass" "Pass\n\x7b\n\x7d", snippet "CGPROGRAM" "CGPROGRAM\nENDCG",
      snippet "HLSLPROGRAM" "HLSLPROGRAM\nENDHLSL", snippet "CGINCLUDE" "CGINCLUDE\nENDCG"]

/-- What is offered in a sub shader or pass. -/
def renderBlockItems : List CompletionItem :=
  if c.isBlankAt node then
    renderStateNames c ++
      (if !c.settings.keywordCompletion then []
        else if isInPass c node then passKeywords else subShaderKeywords)
  else []

/-- What is offered among tags: names, and values after a closed name that lacks its equals sign. -/
def tagsScopeItems : List CompletionItem :=
  if c.isBlankAt node then tagNames c node
  else if !((c.tree.node? node).any fun n => n.isSkippedLine) then []
  else
    let tag := do
      let pair ← c.tree.bestAttempt node
      closedTag? c (← (c.tree.captures pair "tag").head?)
    (tag.map (tagValues c node)).getD []

/-! ### Parts of patterns -/

/-- What is offered for a part of a property. -/
def propertyItems : List CompletionItem :=
  match c.nameOf node with
  | some "propType" => c.vocabulary.propertyTypes.map (plain .typeParameter)
  | _ => []

/-- What is offered for a part of a tag. -/
def tagItems : List CompletionItem :=
  match c.nameOf node with
  | some "tag" => match closedTag? c node with
    | some tag => tagValues c node tag
    | none => tagNames c node
  | some "value" =>
    let tag := do c.captured? (← c.patternAbove? node) "tag"
    (tag.map fun tag => tagValues c node (unquote tag)).getD []
  | _ => []

/-- What is offered for a part of a render setup. -/
def renderSetupItems : List CompletionItem :=
  match c.nameOf node with
  | some "state" => renderStateNames c
  | some "value" =>
    let state := do c.captured? (← c.patternAbove? node) "state"
    (state.map (renderStateValues c)).getD []
  | _ => []

/-- What is offered for a part of a pragma. -/
def pragmaItems : List CompletionItem :=
  match c.nameOf node with
  | some "command" => c.vocabulary.pragmas.map (detailed .keyword "#pragma")
  | _ => []

end Completion

end ShaderAssist
