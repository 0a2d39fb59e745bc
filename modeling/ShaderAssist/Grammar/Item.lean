import ShaderAssist.Grammar.Definition
import ShaderAssist.Grammar.Keyword
import ShaderAssist.Regex.Finder

/-!
# Compiled grammars

Compiling lays a grammar out as a table of items that refer to each other by number. Item 0 is the
grammar itself. Every definition of a pattern is one alternation, every definition of a scope one scope
item, and each has an entry in a table of its own with its name and rules.
-/

namespace ShaderAssist

/-- Number of an item. -/
structure ItemId where
  index : Nat
deriving DecidableEq, Repr, Inhabited

/-- Number of a pattern definition. -/
structure PatternId where
  index : Nat
deriving DecidableEq, Repr, Inhabited

/-- Number of a scope definition. -/
structure ScopeId where
  index : Nat
deriving DecidableEq, Repr, Inhabited

/-- Where a regular expression comes from: one of the three built-in tokens, or a pattern. -/
inductive TokenKind where
  | string
  | number
  | identifier
  | custom
deriving DecidableEq, Repr, Inhabited

/-- How often an element of a sequence may stand. -/
inductive Multiplicity where
  /-- Exactly once. -/
  | one
  /-- At most once. -/
  | optional
  /-- Any number of times. -/
  | many
deriving DecidableEq, Repr, Inhabited

/-- An element of a sequence. -/
structure SequenceElement where
  item : ItemId
  multiplicity : Multiplicity
deriving DecidableEq, Repr, Inhabited

/-- What can be matched at an offset. -/
inductive Item where
  /-- At least one blank or comment. -/
  | blank (crossLine : Bool)
  /-- A literal text. -/
  | text (keyword : Keyword) (crossLine : Bool)
  /-- A regular expression, with its finder. -/
  | token (kind : TokenKind) (source : String) (finder : Finder) (crossLine : Bool)
  /-- Elements in order. -/
  | sequence (elements : List SequenceElement)
  /-- The first alternative that matches. -/
  | alternation (pattern : PatternId) (alternatives : List ItemId)
  /-- Another item under a name. -/
  | named (name : String) (inner : ItemId)
  /-- A region between two delimiters. -/
  | scope (scope : ScopeId) (opening closing : ItemId) (body : List ItemId)
  /-- A whole document. -/
  | grammar (body : List ItemId)
deriving Inhabited

/-- The items that an item refers to. -/
def Item.references : Item → List ItemId
  | blank _ | text .. | token .. => []
  | sequence elements => elements.map (·.item)
  | alternation _ alternatives => alternatives
  | named _ inner => [inner]
  | scope _ opening closing body => opening :: closing :: body
  | grammar body => body

/-- What is kept of a pattern definition. -/
structure PatternInfo where
  name : Option String
  id : Option String
  collector : Option Collector
  provider : Option Provider
deriving DecidableEq, Repr, Inhabited

/-- What is kept of a scope definition. -/
structure ScopeInfo where
  name : Option String
  collector : Option Collector
  provider : Option Provider
deriving DecidableEq, Repr, Inhabited

/-- The description of a pattern definition. -/
def PatternInfo.describe (p : PatternInfo) : String :=
  s!"CompiledPattern \x7b name: {quoteOption p.name}, id: {quoteOption p.id}, .. \x7d"

/-- The description of a scope definition. -/
def ScopeInfo.describe (s : ScopeInfo) : String :=
  s!"CompiledScope \x7b name: {quoteOption s.name}, .. \x7d"

/-- A compiled grammar. -/
structure CompiledGrammar where
  name : Option String
  items : Array Item
  patterns : Array PatternInfo
  scopes : Array ScopeInfo
deriving Inhabited

namespace CompiledGrammar

/-- The item of the whole document. -/
def root : ItemId :=
  ⟨0⟩

/-- The item with a number. -/
def item? (g : CompiledGrammar) (id : ItemId) : Option Item :=
  g.items[id.index]?

theorem lt_size_of_item? {g : CompiledGrammar} {id : ItemId} {item : Item}
    (h : g.item? id = some item) : id.index < g.items.size := by
  obtain ⟨hlt, -⟩ := Array.getElem?_eq_some_iff.mp h
  exact hlt

/-- The pattern definition with a number. -/
def pattern? (g : CompiledGrammar) (id : PatternId) : Option PatternInfo :=
  g.patterns[id.index]?

/-- The scope definition with a number. -/
def scope? (g : CompiledGrammar) (id : ScopeId) : Option ScopeInfo :=
  g.scopes[id.index]?

/-- Marks the items that can be reached from an item along at most `n` references. -/
def mark (g : CompiledGrammar) : Nat → Array Bool → ItemId → Array Bool
  | 0, seen, _ => seen
  | n + 1, seen, id =>
    match g.item? id, seen[id.index]? with
    | some item, some false =>
      item.references.foldl (mark g n) (seen.set! id.index true)
    | _, _ => seen

/-- The items that can be reached from the root, in ascending order. -/
def reachable (g : CompiledGrammar) : List ItemId :=
  let seen := g.mark (g.items.size + 1) (Array.replicate g.items.size false) root
  ((List.range g.items.size).filter fun i => seen.getD i false).map ItemId.mk

end CompiledGrammar

end ShaderAssist
