import ShaderAssist.Grammar.Item

/-!
# Matches

Matching an item at an offset always has a result, a tree whose nodes say what was tried and how far it
came. A failed attempt is a node like any other: an alternation without a matching alternative keeps
all its attempts, and so does a line of a scope that no pattern explains.
-/

namespace ShaderAssist

/-- What became of an attempt. -/
inductive MatchKind where
  | matched
  | unmatched
  /-- No alternative of a pattern matched; the children are the attempts. -/
  | unmatchedPattern
  /-- A line was skipped; the children are the attempts made on it. -/
  | unmatchedText
deriving DecidableEq, Repr, Inhabited

/-- What a node stands for. -/
inductive Origin where
  /-- An item that is no definition. -/
  | item
  | pattern (id : PatternId)
  | scope (id : ScopeId)
  | grammar
deriving DecidableEq, Repr, Inhabited

/-- What a node says about an attempt. Offsets count bytes. -/
structure MatchInfo where
  /-- The item that was tried; none for a skipped line. -/
  item : Option ItemId
  origin : Origin
  kind : MatchKind
  start : Nat
  stop : Nat
  /-- The name under which a pattern refers to the item. -/
  name : Option String
deriving DecidableEq, Repr, Inhabited

namespace MatchInfo

/-- Whether the attempt succeeded. -/
def isMatched (m : MatchInfo) : Bool :=
  m.kind == .matched

/-- Whether the node stands for a pattern. -/
def isPattern (m : MatchInfo) : Bool :=
  match m.origin with
  | .pattern _ => true
  | _ => false

/-- Whether the node stands for a scope. -/
def isScope (m : MatchInfo) : Bool :=
  match m.origin with
  | .scope _ => true
  | _ => false

/-- Whether the node is a skipped line. -/
def isSkippedLine (m : MatchInfo) : Bool :=
  m.kind == .unmatchedText

/-- Whether the children are attempts of which only one is of interest. -/
def holdsAttempts (m : MatchInfo) : Bool :=
  m.kind == .unmatchedPattern || m.kind == .unmatchedText

/-- Whether the range of the node contains an offset, both ends included. -/
def contains (m : MatchInfo) (offset : Nat) : Bool :=
  m.start ≤ offset && offset ≤ m.stop

end MatchInfo

/-- The result of matching: a node with the results below it. -/
inductive Match where
  | node (info : MatchInfo) (children : List Match)
deriving Repr, Inhabited

namespace Match

/-- What the node says. -/
def info : Match → MatchInfo
  | node info _ => info

/-- The results below the node. -/
def children : Match → List Match
  | node _ children => children

/-- Offset at which the match starts. -/
def start (m : Match) : Nat :=
  m.info.start

/-- Offset at which the match ends. -/
def stop (m : Match) : Nat :=
  m.info.stop

/-- Whether the attempt succeeded. -/
def isMatched (m : Match) : Bool :=
  m.info.isMatched

/-- A node without children. -/
def leaf (item : ItemId) (kind : MatchKind) (start stop : Nat) : Match :=
  node ⟨some item, .item, kind, start, stop, none⟩ []

/-- The furthest end of some matches, and at least `least`. -/
def furthest (least : Nat) (results : List Match) : Nat :=
  results.foldl (fun n m => max n m.stop) least

/-- A node over some children. It ends at the furthest end of them. If it matched it starts where its
first child does, and else at the offset where it was tried. -/
def ofChildren (item : Option ItemId) (kind : MatchKind) (offset : Nat) (children : List Match) :
    Match :=
  let start := match kind, children with
    | .matched, first :: _ => first.start
    | _, _ => offset
  node ⟨item, .item, kind, start, furthest start children, none⟩ children

/-- The match with another origin. -/
def withOrigin (origin : Origin) : Match → Match
  | node info children => node { info with origin := origin } children

/-- The match under a name. -/
def withName (name : String) : Match → Match
  | node info children => node { info with name := some name } children

/-- The match with another range. -/
def withRange (start stop : Nat) : Match → Match
  | node info children => node { info with start := start, stop := stop } children

end Match

end ShaderAssist
