import ShaderAssist.Completion.Cg

/-!
# Offers at a caret

The items for a caret come from the node it is in and the nodes above. A named part and a skipped line
ask the nearest pattern and the nearest scope above them; a scope that the caret is directly in asks
itself. All that is found is arranged in one list.
-/

namespace ShaderAssist

/-- What a provider offers at a node. -/
def Provider.offer (c : Caret) (node : NodeId) : Provider → List CompletionItem
  | .shaderScope => Completion.shaderScopeItems c node
  | .property => Completion.propertyItems c node
  | .renderBlock => Completion.renderBlockItems c node
  | .tagsScope => Completion.tagsScopeItems c node
  | .tag => Completion.tagItems c node
  | .renderSetup => Completion.renderSetupItems c node
  | .pragma => Completion.pragmaItems c node
  | .declaration => Completion.declarationItems c node
  | .declarator => Completion.declaratorItems c node
  | .unit => Completion.unitItems c node
  | .accessor => Completion.accessorItems c node
  | .block => Completion.blockItems c node
  | .program => Completion.programItems c node

namespace Caret

variable (g : CompiledGrammar) (c : Caret)

/-- What the definition behind one node offers at another one. -/
def offerOf (owner node : NodeId) : List CompletionItem :=
  match (c.tree.node? owner).bind fun n => g.provider? n.origin with
  | some provider => provider.offer c node
  | none => []

/-- What is offered at a node on the way from the caret to the root. -/
def offersAt (id : NodeId) : List CompletionItem :=
  match c.tree.node? id with
  | none => []
  | some node =>
    (if node.name.isSome || node.isSkippedLine then
      (node.pattern.toList ++ node.scope.toList).flatMap fun owner => c.offerOf g owner id
    else []) ++
    (if id = c.innermost && node.isScope then c.offerOf g id id else [])

/-- All that is offered at a caret. -/
def offers : List CompletionItem :=
  (c.innermost :: c.tree.ancestors c.innermost).flatMap (c.offersAt g)

/-- **The completion items for a caret.** -/
def items : List CompletionItem :=
  if c.tree.isEmpty then [] else CompletionItem.arrange (c.offers g)

end Caret

end ShaderAssist
