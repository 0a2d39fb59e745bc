import ShaderAssist.Json.Reader

/-!
# Settings

What a user can set: how deep matching may go, and whether completion offers keywords.
-/

namespace ShaderAssist

/-- The settings. -/
structure Settings where
  /-- How many attempts may be made inside each other. -/
  depthLimit : Nat := 512
  /-- Whether completion offers keywords and snippets. -/
  keywordCompletion : Bool := true
deriving DecidableEq, Repr, Inhabited

namespace Settings

/-- The largest depth limit. -/
def maxDepthLimit : Nat :=
  0xFFFFFFFF

/-- A depth limit in JSON. -/
def depthLimit? (j : Json) : Option Nat := do
  let n ← j.natural?
  if n ≤ maxDepthLimit then some n else none

/-- The settings that a JSON value gives; a missing one keeps its default. -/
def ofJson? (j : Json) : Option Settings := do
  match ← j.record? ["depthLimit", "keywordCompletion"] with
  | [depth, keywords] =>
    let depthLimit ← match depth with
      | some j => depthLimit? j
      | none => some ({} : Settings).depthLimit
    let keywordCompletion ← match keywords with
      | some j => j.bool?
      | none => some ({} : Settings).keywordCompletion
    some ⟨depthLimit, keywordCompletion⟩
  | _ => none

/-- The settings that a JSON text gives. -/
def ofString? (text : String) : Option Settings :=
  (Json.ofString? text).bind ofJson?

end Settings

end ShaderAssist
