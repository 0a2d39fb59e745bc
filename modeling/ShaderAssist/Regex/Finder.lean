import ShaderAssist.Regex.Search

/-!
# Finders

An expression that is ready for use finds a number of bytes at the start of a text. Whatever way it takes, what
it finds is a part of the text, and this is all that matching relies on.
-/

namespace ShaderAssist

/-- An expression that is ready for use. -/
structure Finder where
  /-- Number of bytes that are found at the start of a slice. -/
  matchLength? : Slice → Option Nat
  /-- What is found is a part of the slice. -/
  isPrefixLength : ∀ {s : Slice} {n : Nat}, matchLength? s = some n → IsPrefixLength s.chars n

instance : Inhabited Finder := ⟨⟨fun _ => none, fun h => absurd h (Option.some_ne_none _).symm⟩⟩

/-- The finder of a program. -/
def Program.finder (p : Program) : Finder :=
  ⟨p.matchLength?, p.isPrefixLength_of_matchLength?⟩

end ShaderAssist
