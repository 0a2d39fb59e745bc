import ShaderAssist.Grammar.Item
import ShaderAssist.Regex.Reader

/-!
# Engines

Which regular expressions can be used is up to an engine: it makes a finder of the written form of an
expression, or refuses it. Two laws are asked of it. What a finder finds is a part of the text
(`Finder.isPrefixLength`), and the expressions that stand in no grammar, those of the built-in tokens and of
blanks and comments, are not refused (`Engine.builtin`).

The standard engine reads expressions by `Regex.ofSource?` and follows their programs.
-/

namespace ShaderAssist

namespace Compile

/-- A regular expression that is tried at the start of a text only. -/
def anchored (source : String) (ignoreCase : Bool) : String :=
  (if ignoreCase then "^(?i:" else "^(?:") ++ source ++ ")"

/-- The regular expression of a built-in token. -/
def tokenSource : TokenKind → String
  | .string => "\"(?:[^\"\\\\\\n]|\\\\.)*\""
  | .number => "[+-]?(?:[0-9]+\\.?[0-9]*|\\.[0-9]+)(?:[eE][+-]?[0-9]+)?[fFhHuUlL]?"
  | .identifier | .custom => "[_a-zA-Z][_a-zA-Z0-9]*"

/-- The regular expression of blanks and comments. -/
def triviaSource (crossLine : Bool) : String :=
  if crossLine then "^(?:\\s|/\\*(?s:.*?)\\*/|//[^\\n]*)*"
  else "^(?:[ \\t]|/\\*[^\\n]*?\\*/|//[^\\n]*)*"

/-- The regular expressions that stand in no grammar. -/
inductive IsBuiltinSource : String → Prop
  | token (kind : TokenKind) : IsBuiltinSource (anchored (tokenSource kind) false)
  | trivia (crossLine : Bool) : IsBuiltinSource (triviaSource crossLine)

end Compile

/-- A way of using regular expressions. -/
structure Engine where
  /-- The finder for a written form; none if it is refused. -/
  finder? : String → Option Finder
  /-- The expressions that stand in no grammar are not refused. -/
  builtin : ∀ {source : String}, Compile.IsBuiltinSource source → (finder? source).isSome

namespace Engine

/-- Whether an engine makes something of a written form. -/
def accepts (E : Engine) (source : String) : Bool :=
  (E.finder? source).isSome

theorem isSome_ofSource?_builtin {source : String} (h : Compile.IsBuiltinSource source) :
    (Regex.ofSource? source).isSome := by
  cases h with
  | token kind => cases kind <;> decide +kernel
  | trivia crossLine => cases crossLine <;> decide +kernel

/-- The engine that runs. -/
def standard : Engine where
  finder? source := (Regex.ofSource? source).map fun r => r.program.finder
  builtin h := by
    rw [Option.isSome_map]
    exact isSome_ofSource?_builtin h

theorem accepts_standard (source : String) :
    standard.accepts source = (Regex.ofSource? source).isSome :=
  Option.isSome_map

end Engine

end ShaderAssist
