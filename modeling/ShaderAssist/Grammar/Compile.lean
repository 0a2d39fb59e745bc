import ShaderAssist.Grammar.Engine
import ShaderAssist.Pattern.Reader

/-!
# Compiling grammars

Compiling starts at the patterns of the document and follows references. A definition is known by its
place in the grammar: it is compiled the first time it is reached, and its item is remembered before its
content is compiled, so that recursive grammars come to an end. Definitions that are never reached are
never looked at.

Which regular expressions can be used is up to an engine `E`. A literal text is found without it, but it
has to be one that the engine accepts as an expression.
-/

namespace ShaderAssist

/-- Why a grammar cannot be compiled. -/
inductive GrammarError where
  /-- There is no pattern for a document. -/
  | noPattern
  /-- A pattern has no alternative. -/
  | noAlternative (name : Option String)
  /-- An alternative, or an optional part of it, has no element that counts. -/
  | emptySequence (name : Option String)
  /-- A scope has an empty delimiter. -/
  | emptyDelimiter (name : Option String)
  /-- A reference to a scope has no definition. -/
  | undefinedScope (name : String)
  /-- An alternative is not in the written form of patterns. -/
  | malformed (error : PatternError) (source : String)
  /-- A regular expression, or that of a literal text, cannot be used. -/
  | invalidRegex
  /-- Definitions are nested deeper than there are definitions, which no grammar does. -/
  | nesting
deriving DecidableEq, Repr, Inhabited

/-- The text of a grammar error. -/
def GrammarError.message (e : GrammarError) : String :=
  "Grammar error: " ++ match e with
    | noPattern => "Grammar has no pattern"
    | noAlternative name => s!"Pattern {quoteOption name} has no alternative"
    | emptySequence name => s!"Pattern {quoteOption name} contains an empty sequence"
    | emptyDelimiter name => s!"Scope {quoteOption name} has an empty delimiter"
    | undefinedScope name => s!"Scope \x7b{name}\x7d is not defined"
    | malformed error source => s!"{error.message} in pattern \"{source}\""
    | invalidRegex => "Invalid regex"
    | nesting => "Definitions are nested too deep"

/-! ### Places -/

/-- A step from a definition, or from the grammar, to a definition inside it. -/
inductive PlaceStep where
  | root (index : Nat)
  | patternRepository (key : String)
  | scopeRepository (key : String)
  | dictionary (key : String)
  | scope (key : String)
  | body (index : Nat)
deriving DecidableEq, Repr

/-- The place of a definition in a grammar: the steps that lead to it, the last one first. -/
abbrev Place : Type :=
  List PlaceStep

/-- A definition with its place. -/
inductive Definition where
  | pattern (place : Place) (p : PatternDef)
  | scope (place : Place) (s : ScopeDef)

/-- The place of a definition. -/
def Definition.place : Definition → Place
  | pattern place _ => place
  | scope place _ => place

/-- The patterns of a list with their places. -/
def placed (step : Nat → PlaceStep) (place : Place) (patterns : List PatternDef) :
    List Definition :=
  patterns.zipIdx.map fun p => .pattern (step p.2 :: place) p.1

/-! ### Building the table of items -/

/-- The tables under construction, with the items of the definitions and tokens met so far. -/
structure GrammarBuild where
  items : Array Item := #[]
  patterns : Array PatternInfo := #[]
  scopes : Array ScopeInfo := #[]
  compiled : List (Place × ItemId) := []
  tokens : List ((TokenKind × Bool) × ItemId) := []
deriving Inhabited

/-- A step of compiling. -/
abbrev CompileM : Type → Type :=
  StateT GrammarBuild (Except GrammarError)

namespace Compile

/-- Appends an item. -/
def push (item : Item) : CompileM ItemId := do
  let b ← get
  set { b with items := b.items.push item }
  pure ⟨b.items.size⟩

/-- Replaces an item. -/
def replace (id : ItemId) (item : Item) : CompileM Unit :=
  modify fun b => { b with items := b.items.setIfInBounds id.index item }

/-- Remembers the item of a definition. -/
def remember (place : Place) (id : ItemId) : CompileM Unit :=
  modify fun b => { b with compiled := (place, id) :: b.compiled }

/-- The item of a definition that was met before, or else of the definition compiled anew. -/
def remembered (place : Place) (fresh : CompileM ItemId) : CompileM ItemId := do
  match (← get).compiled.lookup place with
  | some id => pure id
  | none => fresh

/-- Appends the item of a literal text. -/
def pushText (E : Engine) (text : String) (ignoreCase crossLine : Bool) : CompileM ItemId :=
  let keyword : Keyword := ⟨text.toList, ignoreCase⟩
  if E.accepts keyword.source then push (.text keyword crossLine) else throw .invalidRegex

/-- Appends the item of a regular expression. -/
def pushToken (E : Engine) (kind : TokenKind) (source : String) (ignoreCase crossLine : Bool) :
    CompileM ItemId :=
  match E.finder? (anchored source ignoreCase) with
  | some finder => push (.token kind (anchored source ignoreCase) finder crossLine)
  | none => throw .invalidRegex

/-- The item of a built-in token, which is appended once for each way of crossing lines. -/
def token (E : Engine) (kind : TokenKind) (crossLine : Bool) : CompileM ItemId := do
  match (← get).tokens.lookup (kind, crossLine) with
  | some id => pure id
  | none =>
    let id ← pushToken E kind (tokenSource kind) false crossLine
    modify fun b => { b with tokens := ((kind, crossLine), id) :: b.tokens }
    pure id

/-! ### References -/

/-- The built-in token that a name stands for. -/
def tokenOfName? : String → Option TokenKind
  | "string" => some .string
  | "number" => some .number
  | "identifier" => some .identifier
  | _ => none

/-- The pattern definition that a name stands for inside a pattern. -/
def patternOfName? (g : Grammar) (place : Place) (p : PatternDef) (name : String) :
    Option Definition :=
  match p.dictionary.lookup name with
  | some d => some (.pattern (.dictionary name :: place) d)
  | none => (g.patternRepository.lookup name).map (.pattern [.patternRepository name])

/-- The scope definition that a name stands for inside a pattern. -/
def scopeOfName? (g : Grammar) (place : Place) (p : PatternDef) (name : String) :
    Option Definition :=
  match p.scopes.lookup name with
  | some d => some (.scope (.scope name :: place) d)
  | none => (g.scopeRepository.lookup name).map (.scope [.scopeRepository name])

/-- The item of a reference. A single blank stands for blanks in the text, and a name without a
meaning for an identifier. -/
def reference (E : Engine) (g : Grammar) (define : Definition → CompileM ItemId) (place : Place)
    (p : PatternDef) (name : String) : CompileM ItemId := do
  if name = " " then push (.blank p.crossLine)
  else
    let inner ← match tokenOfName? name with
      | some kind => token E kind p.crossLine
      | none => match patternOfName? g place p name with
        | some d => define d
        | none => token E .identifier p.crossLine
    push (.named name inner)

/-! ### Elements -/

/-- The item of the elements of a sequence: the only element itself if it is required, and else a
sequence. -/
def closeSequence (p : PatternDef) (elements : List SequenceElement) : CompileM ItemId :=
  match elements with
  | [] => throw (.emptySequence p.name)
  | [⟨item, .one⟩] => pure item
  | _ => push (.sequence elements)

mutual

/-- The elements that an element of a pattern compiles to: one, or none for a space that is not
kept. -/
def element (E : Engine) (g : Grammar) (define : Definition → CompileM ItemId) (place : Place)
    (p : PatternDef) : Element → CompileM (List SequenceElement)
  | .space => do
    if p.keepSpace then
      let item ← push (.blank p.crossLine)
      pure [⟨item, .one⟩]
    else pure []
  | .text text => do
    let item ← pushText E text p.ignoreCase p.crossLine
    pure [⟨item, .one⟩]
  | .reference name => do
    let item ← reference E g define place p name
    pure [⟨item, .one⟩]
  | .scope name => do
    match scopeOfName? g place p name with
    | some d =>
      let item ← define d
      pure [⟨item, .one⟩]
    | none => throw (.undefinedScope name)
  | .regex source => do
    let item ← pushToken E .custom source p.ignoreCase p.crossLine
    pure [⟨item, .one⟩]
  | .optional inner repeats => do
    let inner ← elements E g define place p inner
    let item ← closeSequence p inner
    pure [⟨item, if repeats then .many else .optional⟩]

/-- The elements that some elements of a pattern compile to. -/
def elements (E : Engine) (g : Grammar) (define : Definition → CompileM ItemId) (place : Place)
    (p : PatternDef) : List Element → CompileM (List SequenceElement)
  | [] => pure []
  | e :: es => do
    let first ← element E g define place p e
    let rest ← elements E g define place p es
    pure (first ++ rest)

end

/-- The item of an alternative. -/
def alternative (E : Engine) (g : Grammar) (define : Definition → CompileM ItemId) (place : Place)
    (p : PatternDef) (source : String) : CompileM ItemId :=
  match Pattern.readElements source with
  | .error e => throw (.malformed e source)
  | .ok es => do
    let compiled ← elements E g define place p es
    closeSequence p compiled

/-! ### Definitions -/

/-- Compiles a pattern that was not met before. -/
def freshPattern (E : Engine) (g : Grammar) (define : Definition → CompileM ItemId) (place : Place)
    (p : PatternDef) : CompileM ItemId := do
  if p.sources.isEmpty then throw (.noAlternative p.name)
  let pattern : PatternId := ⟨(← get).patterns.size⟩
  modify fun b =>
    { b with patterns := b.patterns.push ⟨p.name, p.id, p.collector, p.provider⟩ }
  let id ← push (.alternation pattern [])
  remember place id
  let alternatives ← p.sources.mapM (alternative E g define place p)
  replace id (.alternation pattern alternatives)
  pure id

/-- Compiles a scope that was not met before. Its delimiters may stand on other lines. -/
def freshScope (E : Engine) (define : Definition → CompileM ItemId) (place : Place)
    (s : ScopeDef) : CompileM ItemId := do
  if s.opening.isEmpty || s.closing.isEmpty then throw (.emptyDelimiter s.name)
  let scope : ScopeId := ⟨(← get).scopes.size⟩
  modify fun b => { b with scopes := b.scopes.push ⟨s.name, s.collector, s.provider⟩ }
  let opening ← pushText E s.opening false true
  let closing ← pushText E s.closing false true
  let id ← push (.scope scope opening closing [])
  remember place id
  let body ← (placed .body place s.patterns).mapM define
  replace id (.scope scope opening closing body)
  pure id

/-- The item of a definition, with at most `n` definitions inside each other. -/
def definition (E : Engine) (g : Grammar) : Nat → Definition → CompileM ItemId
  | 0, d => remembered d.place (throw .nesting)
  | n + 1, d => remembered d.place (match d with
    | .pattern place p => freshPattern E g (definition E g n) place p
    | .scope place s => freshScope E (definition E g n) place s)

/-- Compiles the patterns of a document. -/
def document (E : Engine) (g : Grammar) : CompileM Unit := do
  if g.patterns.isEmpty then throw .noPattern
  let root ← push (.grammar [])
  let body ← (placed .root [] g.patterns).mapM (definition E g g.count)
  replace root (.grammar body)

end Compile

/-- **Compiling a grammar.** -/
def Grammar.compile (g : Grammar) (E : Engine) : Except GrammarError CompiledGrammar := do
  let ((), b) ← (Compile.document E g).run {}
  pure ⟨g.name, b.items, b.patterns, b.scopes⟩

end ShaderAssist
