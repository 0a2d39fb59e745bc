import ShaderAssist.Completion.Offer
import ShaderAssist.Language.ShaderLab
import ShaderAssist.Match.Matcher

/-!
# The assistant

A compiled grammar with a vocabulary and settings, which is made once and answers questions about any
number of documents: how a document is matched, which symbols it has, and what to offer at a position.
-/

namespace ShaderAssist

/-- An assistant for a language. -/
structure Assistant where
  grammar : CompiledGrammar
  vocabulary : Vocabulary := .builtin
  settings : Settings := {}

namespace Assistant

/-- The assistant for a grammar. -/
def ofGrammar (g : Grammar) (settings : Settings) : Except GrammarError (Traced Assistant) :=
  (g.compile .standard).map fun grammar => do
    Traced.report grammar.event
    pure { grammar, settings }

/-- The assistant for ShaderLab. -/
def shaderLab (settings : Settings) : Except GrammarError (Traced Assistant) :=
  ofGrammar ShaderLab.grammar settings

variable (a : Assistant) (d : Document)

/-- The matcher for a document. -/
def matcher : Matcher :=
  ⟨a.grammar, d, a.settings.depthLimit⟩

/-- The match tree of a document. -/
def matchTree : Traced MatchTree := do
  pure (.ofMatch (← (a.matcher d).matchDocument))

/-- What a match tree says about a document. -/
def analysisOf (tree : MatchTree) : Analysis :=
  let matched : MatchedDocument := ⟨d, tree⟩
  ⟨matched, .ofMatched matched a.vocabulary a.grammar⟩

/-- **The match tree and the symbols of a document.** -/
def analyse : Traced Analysis := do
  pure (a.analysisOf d (← a.matchTree d))

/-- The caret at an offset. -/
def caret (analysis : Analysis) (offset : Nat) : Caret :=
  { analysis with vocabulary := a.vocabulary, settings := a.settings, offset := offset }

/-- **The completion items at a position.** -/
def complete (position : Position) : Except PositionError (Traced (List CompletionItem)) :=
  (d.offsetAt position).map fun offset => do
    let items := (a.caret (← a.analyse d) offset).items a.grammar
    Traced.report (.completed position items.length)
    pure items

end Assistant

end ShaderAssist
