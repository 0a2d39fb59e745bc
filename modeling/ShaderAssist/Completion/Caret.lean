import ShaderAssist.Completion.Item
import ShaderAssist.Settings
import ShaderAssist.Symbols.UnitType
import ShaderAssist.Text.WordChar

/-!
# Carets

A place in a matched document at which completion is asked for. The caret is in the innermost node of the
tree; next to the delimiters of a scope it is in the scope itself.
-/

namespace ShaderAssist

/-- A document with what is known about it. -/
structure Analysis extends MatchedDocument where
  symbols : Symbols
deriving Inhabited

/-- Whether a node is a delimiter of the scope above it that leaves the caret outside of it: the first
child, which ends before the caret, or the last of several, which starts after it. -/
def MatchTree.isDelimiterBeside (t : MatchTree) (scope id : NodeId) (node : MatchNode)
    (offset : Nat) : Bool :=
  let siblings := t.children scope
  siblings.head? == some id && decide (node.stop ≤ offset) ||
    decide (1 < siblings.length) && siblings.getLast? == some id && decide (offset ≤ node.start)

/-- The node that a caret is in: the innermost one, or the scope that it delimits. Without nodes the
root stands for it. -/
def MatchTree.caretNode (t : MatchTree) (offset : Nat) : NodeId :=
  let id := (t.innermost? offset).getD MatchTree.root
  match t.node? id with
  | none => id
  | some node =>
    match node.parent with
    | none => id
    | some parent =>
      if !((t.node? parent).any fun p => p.isScope) then id
      else if node.name.isSome || !node.children.isEmpty || !node.isMatched then id
      else if t.isDelimiterBeside parent id node offset then parent
      else id

/-- A place in a document at which completion is asked for. -/
structure Caret extends Analysis where
  vocabulary : Vocabulary
  settings : Settings
  offset : Nat
deriving Inhabited

namespace Caret

/-- The node that the caret is in. -/
def innermost (c : Caret) : NodeId :=
  c.tree.caretNode c.offset

/-- The name of a node. -/
def nameOf (c : Caret) (id : NodeId) : Option String :=
  (c.tree.node? id).bind fun n => n.name

/-- Whether the text from an offset to the caret has only characters of names. -/
def isWordSince (c : Caret) (start : Nat) : Bool :=
  (c.document.textBetween start c.offset).any fun text =>
    text.all fun ch => isAlphanumeric ch || ch == '_'

/-- Whether nothing is known about what stands at the caret: it is in a gap of a scope or in a skipped
line. With a failed attempt around the caret the line counts up to the end of its first word, so that
a name that is being typed gets the same items as an empty line. -/
def isBlankAt (c : Caret) (id : NodeId) : Bool :=
  match c.tree.node? id with
  | none => false
  | some node =>
    if id = c.innermost then node.isSkippedLine || node.isScope
    else node.isSkippedLine && c.isWordSince node.start

/-- The nearest pattern above a node. -/
def patternAbove? (c : Caret) (id : NodeId) : Option NodeId :=
  (c.tree.node? id).bind MatchNode.pattern

end Caret

end ShaderAssist
