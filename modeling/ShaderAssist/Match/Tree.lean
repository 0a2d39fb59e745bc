import ShaderAssist.Match.Basic
import ShaderAssist.Text.Document

/-!
# Match trees

A match with its nodes numbered, so that they can be referred to and asked for what is around them. The
numbers follow the order in which the nodes stand in the document, every node before those below it.
Each node knows its parent and the nearest pattern and scope above it.

Questions to a tree: the named parts of a node (`captures`), the node a cursor stands in (`innermost?`),
and, where attempts failed, the one that came furthest (`bestAttempt`).
-/

namespace ShaderAssist

/-- Number of a node. -/
structure NodeId where
  index : Nat
deriving DecidableEq, Repr, Inhabited

/-- A node of a match tree. -/
structure MatchNode extends MatchInfo where
  parent : Option NodeId
  children : List NodeId
  /-- The nearest pattern above the node. -/
  pattern : Option NodeId
  /-- The nearest scope above the node. -/
  scope : Option NodeId
deriving DecidableEq, Repr, Inhabited

/-- A match with numbered nodes; the first one is the root. -/
structure MatchTree where
  nodes : Array MatchNode
deriving Repr, Inhabited

/-- What a node knows about the nodes above it. -/
structure NodeContext where
  parent : Option NodeId := none
  pattern : Option NodeId := none
  scope : Option NodeId := none

/-- What the children of a node know about the nodes above them. -/
def NodeContext.below (k : NodeContext) (id : NodeId) (info : MatchInfo) : NodeContext where
  parent := some id
  pattern := if info.isPattern then some id else k.pattern
  scope := if info.isScope then some id else k.scope

mutual

/-- The nodes of a match in order, numbered from `next` on, and the number after them. -/
def Match.number (k : NodeContext) (next : Nat) : Match → List MatchNode × Nat
  | .node info children =>
    let (below, ids, after) := numberAll (k.below ⟨next⟩ info) (next + 1) children
    (⟨info, k.parent, ids, k.pattern, k.scope⟩ :: below, after)

/-- The nodes of some matches in order, the numbers of the matches, and the number after them. -/
def numberAll (k : NodeContext) (next : Nat) : List Match → List MatchNode × List NodeId × Nat
  | [] => ([], [], next)
  | m :: ms =>
    let (first, after) := m.number k next
    let (rest, ids, last) := numberAll k after ms
    (first ++ rest, ⟨next⟩ :: ids, last)

end

namespace MatchTree

/-- The tree of a match. -/
def ofMatch (m : Match) : MatchTree :=
  ⟨(m.number {} 0).1.toArray⟩

/-- The tree without nodes. -/
def empty : MatchTree :=
  ⟨#[]⟩

/-- The root. -/
def root : NodeId :=
  ⟨0⟩

/-- Number of nodes. -/
def size (t : MatchTree) : Nat :=
  t.nodes.size

/-- Whether there is no node. -/
def isEmpty (t : MatchTree) : Bool :=
  t.nodes.isEmpty

/-- The node with a number. -/
def node? (t : MatchTree) (id : NodeId) : Option MatchNode :=
  t.nodes[id.index]?

/-- The numbers of all nodes. -/
def ids (t : MatchTree) : List NodeId :=
  (List.range t.size).map NodeId.mk

/-- The children of a node. -/
def children (t : MatchTree) (id : NodeId) : List NodeId :=
  ((t.node? id).map MatchNode.children).getD []

/-- The parent of a node. -/
def parent? (t : MatchTree) (id : NodeId) : Option NodeId :=
  (t.node? id).bind MatchNode.parent

/-- The nearest `n` nodes above a node, the nearest first. -/
def ancestorsUpTo (t : MatchTree) : Nat → NodeId → List NodeId
  | 0, _ => []
  | n + 1, id =>
    match t.parent? id with
    | some parent => parent :: ancestorsUpTo t n parent
    | none => []

/-- The nodes above a node, the nearest first. -/
def ancestors (t : MatchTree) (id : NodeId) : List NodeId :=
  t.ancestorsUpTo t.size id

/-- Offset at which a node ends. -/
def stop (t : MatchTree) (id : NodeId) : Nat :=
  ((t.node? id).map fun n => n.stop).getD 0

/-- Whether the attempt of a node succeeded. -/
def isMatched (t : MatchTree) (id : NodeId) : Bool :=
  (t.node? id).any fun n => n.isMatched

/-! ### Texts -/

/-- The text of a node. -/
def text (t : MatchTree) (d : Document) (id : NodeId) : String :=
  match t.node? id with
  | some n => String.ofList ((d.textBetween n.start n.stop).getD [])
  | none => ""

/-- The range of a node in positions. -/
def range (t : MatchTree) (d : Document) (id : NodeId) : PositionRange :=
  match t.node? id with
  | some n => ⟨d.positionAt n.start, d.positionAt n.stop⟩
  | none => default

/-! ### Attempts -/

/-- Of two attempts the one that came further, the first one if they came equally far. -/
def better (t : MatchTree) (best : Option NodeId) (id : NodeId) : Option NodeId :=
  match best with
  | some current => if t.stop id ≤ t.stop current then some current else some id
  | none => some id

/-- The child of a node that came furthest, the first one of several. -/
def bestAttempt (t : MatchTree) (id : NodeId) : Option NodeId :=
  (t.children id).foldl t.better none

/-- The children of a node that count: the best one of attempts, and else all. -/
def liveChildren (t : MatchTree) (id : NodeId) : List NodeId :=
  match t.node? id with
  | some n => if n.holdsAttempts then (t.bestAttempt id).toList else n.children
  | none => []

/-- A node and the nodes at most `n` levels below it that count, in order. -/
def liveUpTo (t : MatchTree) : Nat → NodeId → List NodeId
  | 0, _ => []
  | n + 1, id => id :: (t.liveChildren id).flatMap (liveUpTo t n)

/-- The nodes that count, in order. -/
def live (t : MatchTree) : List NodeId :=
  if t.isEmpty then [] else t.liveUpTo t.size root

/-! ### Captures -/

/-- The nodes under a name among a node and those at most `n` levels below it. A node with another
name, and a pattern or a scope, keeps its parts for itself. -/
def capturesUpTo (t : MatchTree) (name : String) : Nat → NodeId → List NodeId
  | 0, _ => []
  | n + 1, id =>
    match t.node? id with
    | none => []
    | some node =>
      if node.name = some name then [id]
      else if node.name.isSome || node.isPattern || node.isScope then []
      else node.children.flatMap (capturesUpTo t name n)

/-- The parts of a node under a name, in order. -/
def captures (t : MatchTree) (id : NodeId) (name : String) : List NodeId :=
  (t.liveChildren id).flatMap (t.capturesUpTo name t.size)

/-- The text of the first part of a node under a name that matched. -/
def capturedText (t : MatchTree) (d : Document) (id : NodeId) (name : String) : Option String :=
  ((t.captures id name).find? t.isMatched).map (t.text d)

/-! ### The node at a cursor -/

/-- Whether a node is a better place for a cursor than another one: a node that starts before the
cursor, and then one that reaches further. -/
def isBetterPlace (offset : Nat) (candidate best : MatchNode) : Bool :=
  let candidateBefore := candidate.start < offset
  let bestBefore := best.start < offset
  if candidateBefore != bestBefore then candidateBefore else best.stop < candidate.stop

/-- The better place for a cursor of the best node so far and another one. -/
def betterPlace (t : MatchTree) (offset : Nat) (best : Option NodeId) (id : NodeId) :
    Option NodeId :=
  match t.node? id with
  | none => best
  | some candidate =>
    if !candidate.contains offset then best
    else match best.bind t.node? with
      | some current => if isBetterPlace offset candidate current then some id else best
      | none => some id

/-- The innermost node for an offset, at most `n` levels below a node. -/
def innermostFrom (t : MatchTree) (offset : Nat) : Nat → NodeId → NodeId
  | 0, id => id
  | n + 1, id =>
    match (t.children id).foldl (t.betterPlace offset) none with
    | some child => innermostFrom t offset n child
    | none => id

/-- The innermost node for an offset; none if there is no node at all. -/
def innermost? (t : MatchTree) (offset : Nat) : Option NodeId :=
  if t.isEmpty then none else some (t.innermostFrom offset t.size root)

end MatchTree

/-! ### Definitions behind nodes -/

namespace CompiledGrammar

/-- What is recorded about matches of an origin. -/
def collector? (g : CompiledGrammar) : Origin → Option Collector
  | .pattern id => (g.pattern? id).bind PatternInfo.collector
  | .scope id => (g.scope? id).bind ScopeInfo.collector
  | _ => none

/-- What completion offers inside matches of an origin. -/
def provider? (g : CompiledGrammar) : Origin → Option Provider
  | .pattern id => (g.pattern? id).bind PatternInfo.provider
  | .scope id => (g.scope? id).bind ScopeInfo.provider
  | _ => none

/-- The name of the definition behind an origin. -/
def originName? (g : CompiledGrammar) : Origin → Option String
  | .pattern id => (g.pattern? id).bind PatternInfo.name
  | .scope id => (g.scope? id).bind ScopeInfo.name
  | .grammar => g.name
  | .item => none

end CompiledGrammar

end ShaderAssist
