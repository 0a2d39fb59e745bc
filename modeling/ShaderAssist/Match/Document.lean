import ShaderAssist.Match.Tree
import ShaderAssist.Text.Blank

/-!
# Matched documents

A document with its match tree, which together give the texts of what was matched.
-/

namespace ShaderAssist

/-- A document with its match tree. -/
structure MatchedDocument where
  document : Document
  tree : MatchTree
deriving Inhabited

namespace MatchedDocument

/-- The text of a node. -/
def text (m : MatchedDocument) (id : NodeId) : String :=
  m.tree.text m.document id

/-- The text of a node without blanks at its ends. -/
def trimmedText (m : MatchedDocument) (id : NodeId) : String :=
  trimBlank (m.text id)

/-- The text of the first matched part of a node under a name, without blanks at its ends. -/
def captured? (m : MatchedDocument) (id : NodeId) (name : String) : Option String :=
  (m.tree.capturedText m.document id name).map trimBlank

/-- As `captured?`, for a text that is not empty. -/
def word? (m : MatchedDocument) (id : NodeId) (name : String) : Option String :=
  (m.captured? id name).filter fun text => !text.isEmpty

/-- As `word?`, with the empty text for none. -/
def word (m : MatchedDocument) (id : NodeId) (name : String) : String :=
  (m.word? id name).getD ""

/-- The texts of all matched parts of a node under a name, without blanks at their ends. -/
def allCaptured (m : MatchedDocument) (id : NodeId) (name : String) : List String :=
  ((m.tree.captures id name).filter m.tree.isMatched).map m.trimmedText

end MatchedDocument

end ShaderAssist
