import ShaderAssist.Text.Keyed
import ShaderAssist.Text.Quoted

/-!
# Grammars

A grammar is given by definitions of patterns and scopes. A pattern has one or more alternatives in
the written form of patterns, and names for what its references mean: a dictionary of patterns and a
table of scopes of its own, before those of the whole grammar. A scope is a region between two
delimiters with the patterns that may stand in it. Both may say what is recorded when they match and
what completion offers inside them.
-/

namespace ShaderAssist

/-- What is recorded about a match. -/
inductive Collector where
  | shader
  | property
  | fallback
  | customEditor
  | subShader
  | pass
  | lod
  | tag
  | renderSetup
  | program
  | includeBlock
  | struct
  | structMember
  | function
  | parameter
  | block
  | variable
  | declarator
  | forInit
deriving DecidableEq, Repr, Inhabited

/-- What completion offers inside a match. -/
inductive Provider where
  | shaderScope
  | property
  | renderBlock
  | tagsScope
  | tag
  | renderSetup
  | pragma
  | declaration
  | declarator
  | unit
  | accessor
  | block
  | program
deriving DecidableEq, Repr, Inhabited

mutual

/-- The definition of a pattern. Tables are in ascending order of their keys. -/
structure PatternDef where
  name : Option String := none
  id : Option String := none
  /-- The alternatives in written form. -/
  sources : List String := []
  ignoreCase : Bool := false
  /-- Whether blanks before a word may hold line feeds. -/
  crossLine : Bool := false
  /-- Whether a space in a source asks for a blank in the text. -/
  keepSpace : Bool := false
  dictionary : List (String × PatternDef) := []
  scopes : List (String × ScopeDef) := []
  collector : Option Collector := none
  provider : Option Provider := none

/-- The definition of a scope. -/
structure ScopeDef where
  name : Option String := none
  opening : String
  closing : String
  patterns : List PatternDef := []
  collector : Option Collector := none
  provider : Option Provider := none

end

instance : Inhabited PatternDef := ⟨{}⟩
instance : Inhabited ScopeDef := ⟨{ opening := "", closing := "" }⟩

/-- A grammar: the patterns of a document, and the patterns and scopes that any pattern may refer to,
in ascending order of their keys. -/
structure Grammar where
  name : Option String := none
  patterns : List PatternDef := []
  patternRepository : List (String × PatternDef) := []
  scopeRepository : List (String × ScopeDef) := []
deriving Inhabited

namespace PatternDef

/-- A pattern with a name of its own. -/
def named (name : String) (sources : List String) : PatternDef :=
  { name := some name, sources := sources }

/-- A pattern that refers to one of the repository. -/
def reference (name : String) : PatternDef :=
  { sources := [s!"<{name}>"] }

/-- A quoted text. -/
def string : PatternDef :=
  named "String" ["<string>"]

/-- A number. -/
def number : PatternDef :=
  named "Number" ["<number>"]

/-- An identifier. -/
def identifier : PatternDef :=
  named "Identifier" ["<identifier>"]

end PatternDef

/-! ### Number of definitions -/

mutual

/-- Number of definitions in a pattern, with the pattern itself. -/
def PatternDef.count : PatternDef → Nat
  | { dictionary, scopes, .. } => 1 + countPatternTable dictionary + countScopeTable scopes

/-- Number of definitions in a table of patterns. -/
def countPatternTable : List (String × PatternDef) → Nat
  | [] => 0
  | (_, p) :: rest => p.count + countPatternTable rest

/-- Number of definitions in a table of scopes. -/
def countScopeTable : List (String × ScopeDef) → Nat
  | [] => 0
  | (_, s) :: rest => s.count + countScopeTable rest

/-- Number of definitions in a scope, with the scope itself. -/
def ScopeDef.count : ScopeDef → Nat
  | { patterns, .. } => 1 + countPatterns patterns

/-- Number of definitions in a list of patterns. -/
def countPatterns : List PatternDef → Nat
  | [] => 0
  | p :: rest => p.count + countPatterns rest

end

/-- Number of definitions in a grammar. -/
def Grammar.count (g : Grammar) : Nat :=
  countPatterns g.patterns + countPatternTable g.patternRepository +
    countScopeTable g.scopeRepository

/-! ### Description -/

/-- A table in a description. -/
def describeTable (entries : List (String × String)) : String :=
  bracketed "\x7b" "\x7d" (entries.map fun e => s!"{quote e.1}: {e.2}")

mutual

/-- The description of a pattern. -/
def PatternDef.describe : PatternDef → String
  | { name, sources, dictionary, scopes, .. } =>
    s!"GrammarPattern \x7b name: {quoteOption name}, patterns: " ++
      bracketed "[" "]" (sources.map quote) ++
      s!", dictionary: {describeTable (describePatternTable dictionary)}" ++
      s!", scopes: {describeTable (describeScopeTable scopes)}, .. \x7d"

/-- The descriptions in a table of patterns. -/
def describePatternTable : List (String × PatternDef) → List (String × String)
  | [] => []
  | (key, p) :: rest => (key, p.describe) :: describePatternTable rest

/-- The descriptions in a table of scopes. -/
def describeScopeTable : List (String × ScopeDef) → List (String × String)
  | [] => []
  | (key, s) :: rest => (key, s.describe) :: describeScopeTable rest

/-- The description of a scope. -/
def ScopeDef.describe : ScopeDef → String
  | { name, opening, closing, patterns, .. } =>
    s!"GrammarScope \x7b name: {quoteOption name}, begin: {quote opening}, end: {quote closing}" ++
      ", patterns: " ++ bracketed "[" "]" (describePatterns patterns) ++ ", .. \x7d"

/-- The descriptions of a list of patterns. -/
def describePatterns : List PatternDef → List String
  | [] => []
  | p :: rest => p.describe :: describePatterns rest

end

/-- The description of a grammar. -/
def Grammar.describe (g : Grammar) : String :=
  s!"LanguageGrammar \x7b name: {quoteOption g.name}, patterns: " ++
    bracketed "[" "]" (describePatterns g.patterns) ++
    s!", pattern_repository: {describeTable (describePatternTable g.patternRepository)}" ++
    s!", scope_repository: {describeTable (describeScopeTable g.scopeRepository)} \x7d"

end ShaderAssist
