import ShaderAssist.Proofs.Match.Termination
import ShaderAssist.Proofs.Match.Derivation
import ShaderAssist.Proofs.Match.Gaps
import ShaderAssist.Assistant
import ShaderAssist.Symbols.Collect
import ShaderAssist.Symbols.UnitType
import ShaderAssist.Settings
import ShaderAssist.Json.Reader
import ShaderAssist.Language.ShaderLab
import ShaderAssist.Match.Tree
import ShaderAssist.Match.Matcher
import ShaderAssist.Grammar.Compile
import ShaderAssist.Pattern.Reader
import ShaderAssist.Regex.Reader
import ShaderAssist.Text.Blank
import ShaderAssist.Text.CaseFold
import ShaderAssist.Text.Document
import ShaderAssist.Text.Quoted
import ShaderAssist.Text.Trivia
import ShaderAssist.Text.WordChar
import ShaderAssist.Proofs.Match.Calls
import ShaderAssist.Proofs.Match.Stability
import ShaderAssist.Proofs.Match.Advancing
import ShaderAssist.Proofs.Match.LeftRecursion
import ShaderAssist.Proofs.Grammar.Reached
import ShaderAssist.Proofs.Grammar.Translation
import ShaderAssist.Proofs.Grammar.Consistency
import ShaderAssist.Proofs.Grammar.Compiling
import ShaderAssist.Proofs.Grammar.Faithful
import ShaderAssist.Proofs.Grammar.Agreement
import ShaderAssist.Proofs.Grammar.Failing
import ShaderAssist.Proofs.Grammar.Descending
import ShaderAssist.Proofs.Language.ShaderLab
import ShaderAssist.Proofs.Regex.Literal
import ShaderAssist.Proofs.Pattern.Reading
import ShaderAssist.Proofs.Text.Lines
import ShaderAssist.Proofs.Text.Positions
import ShaderAssist.Proofs.Cg.Visible
import ShaderAssist.Proofs.Cg.Closed
import ShaderAssist.Proofs.Symbols.Changes
import ShaderAssist.Proofs.Symbols.Links
import ShaderAssist.Proofs.Match.Ranges
import ShaderAssist.Proofs.Match.Preorder
import ShaderAssist.Proofs.Match.Live
import ShaderAssist.Proofs.Symbols.Order
import ShaderAssist.Proofs.Cg.Scopes
import ShaderAssist.Proofs.Symbols.Scoping
import ShaderAssist.Proofs.Cg.Lexical
import ShaderAssist.Proofs.Symbols.Isolation
import ShaderAssist.Proofs.Cg.Names
import ShaderAssist.Proofs.Symbols.Places
import ShaderAssist.Proofs.Symbols.Includes
import ShaderAssist.Proofs.Match.Shift
import ShaderAssist.Proofs.Match.Reads
import ShaderAssist.Proofs.Cg.Types
import ShaderAssist.Proofs.Cg.Nesting
import ShaderAssist.Proofs.Match.Flattening
import ShaderAssist.Proofs.Cg.Swizzles
import ShaderAssist.Proofs.Cg.Declarations
import ShaderAssist.Proofs.Symbols.Arrays
import ShaderAssist.Proofs.Completion.Arranging
import ShaderAssist.Proofs.Completion.Keywords
import ShaderAssist.Proofs.Pattern.NormalForm
import ShaderAssist.Proofs.Match.SkippedLines
import ShaderAssist.Proofs.Cg.Resolving
import ShaderAssist.Proofs.Cg.Importing
import ShaderAssist.Proofs.Cg.Shadowing
import ShaderAssist.Proofs.Completion.Sorting
import ShaderAssist.Proofs.Match.Captures
import ShaderAssist.Proofs.Match.Innermost
import ShaderAssist.Proofs.Text.Skipping
import ShaderAssist.Proofs.Text.LineEnds
import ShaderAssist.Proofs.Match.Height
import ShaderAssist.Proofs.Regex.Keywords
import ShaderAssist.Proofs.Regex.Trivia
import ShaderAssist.Proofs.Cg.ShapeNames
