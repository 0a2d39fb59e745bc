import ShaderAssist.Pattern.Reader
import Mathlib.Tactic.Common

/-!
# The notation of patterns

`Pattern.Sequence s es` says, without reading anything, that the text `s` is a written form of the elements
`es`. It is built from runs: a word is a run of characters that stand for themselves or are escaped, a space
is a run of blanks, and neither can be made longer, since no two words and no two spaces are next to each
other. `Spells` is what may stand inside a word, a name or a regular expression, and `Closes` says which
optional part a sequence in brackets is.
-/

namespace ShaderAssist

namespace Pattern

/-! ### Spelled texts -/

/-- How a text is spelled: a character that is not special stands for itself, and a backslash with a
character after it for what `escape` makes of the character. -/
inductive Spells (special : List Char) (escape : Char → List Char) : List Char → List Char → Prop
  | nil : Spells special escape [] []
  | plain {c : Char} {s t : List Char} (hc : c ∉ special) (h : Spells special escape s t) :
    Spells special escape (c :: s) (c :: t)
  | escaped {c : Char} {s t : List Char} (h : Spells special escape s t) :
    Spells special escape ('\\' :: c :: s) (escape c ++ t)

/-- The characters that do not stand for themselves in a pattern. -/
def special : List Char :=
  ['\\', ' ', '\t', '<', '\x7b', '/', '[', ']', '>', '\x7d']

/-- In words and names an escaped character stands for itself. -/
def itself (c : Char) : List Char :=
  [c]

/-- In a regular expression only the slash loses its backslash. -/
def unescapeSlash (c : Char) : List Char :=
  if c = '/' then ['/'] else ['\\', c]

/-- The spelling of a word. -/
abbrev SpellsWord : List Char → List Char → Prop :=
  Spells special itself

/-- The spelling of a name that a closing character ends. -/
abbrev SpellsName (close : Char) : List Char → List Char → Prop :=
  Spells ['\\', close] itself

/-- The spelling of a regular expression between slashes. -/
abbrev SpellsRegex : List Char → List Char → Prop :=
  Spells ['\\', '/'] unescapeSlash

/-- A character that separates elements. -/
def IsSpacing (c : Char) : Prop :=
  c = ' ' ∨ c = '\t'

/-! ### Optional parts -/

/-- Some elements without the space at their end. -/
def trimSpace (es : List Element) : List Element :=
  if es.getLast?.any Element.isSpace then es.dropLast else es

/-- **The optional part that a sequence in brackets is.** Space at the end does not count. Three points at the
end of the last word make the part repeatable and are taken off the word; where nothing is left of it, the
space before it does not count either. Some element has to be left. -/
inductive Closes (body : List Element) : Element → Prop
  | once (hne : trimSpace body ≠ [])
    (hdots : ∀ word, (trimSpace body).getLast? ≠ some (.text (word ++ "..."))) :
    Closes body (.optional (trimSpace body) false)
  | word {es : List Element} {word : String} (hbody : trimSpace body = es ++ [.text (word ++ "...")])
    (hword : word ≠ "") : Closes body (.optional (es ++ [.text word]) true)
  | points {es : List Element} (hbody : trimSpace body = es ++ [.text "..."])
    (hne : trimSpace es ≠ []) : Closes body (.optional (trimSpace es) true)

/-! ### Sequences -/

/-- **The written form of some elements.** -/
inductive Sequence : List Char → List Element → Prop
  | nil : Sequence [] []
  | text {s r word : List Char} {es : List Element} (hs : SpellsWord s word) (hword : word ≠ [])
    (hr : Sequence r es) (hmax : ∀ t, es.head? ≠ some (.text t)) :
    Sequence (s ++ r) (.text (String.ofList word) :: es)
  | space {s r : List Char} {es : List Element} (hs : ∀ c ∈ s, IsSpacing c) (hne : s ≠ [])
    (hr : Sequence r es) (hmax : es.head? ≠ some .space) : Sequence (s ++ r) (.space :: es)
  | reference {s r name : List Char} {es : List Element} (hs : SpellsName '>' s name)
    (hname : name ≠ []) (hr : Sequence r es) :
    Sequence ('<' :: (s ++ '>' :: r)) (.reference (String.ofList name) :: es)
  | scope {s r name : List Char} {es : List Element} (hs : SpellsName '\x7d' s name)
    (hname : name ≠ []) (hr : Sequence r es) :
    Sequence ('\x7b' :: (s ++ '\x7d' :: r)) (.scope (String.ofList name) :: es)
  | regex {s r source : List Char} {es : List Element} (hs : SpellsRegex s source)
    (hsource : source ≠ []) (hr : Sequence r es) :
    Sequence ('/' :: (s ++ '/' :: r)) (.regex (String.ofList source) :: es)
  | optional {s r : List Char} {body es : List Element} {e : Element} (hs : Sequence s body)
    (he : Closes body e) (hr : Sequence r es) : Sequence ('[' :: (s ++ ']' :: r)) (e :: es)

/-- **The patterns**: sequences with an element. -/
def Denotes (source : String) (es : List Element) : Prop :=
  Sequence source.toList es ∧ es ≠ []

end Pattern

end ShaderAssist
