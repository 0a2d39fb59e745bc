import ShaderAssist.Match.Basic
import ShaderAssist.Match.Event
import ShaderAssist.Regex.Search
import ShaderAssist.Text.Trivia

/-!
# Matching

`Matcher.matchItem` matches an item at an offset of a document. Before a word it passes over blanks and
comments. It never fails as a whole: what does not match is a node of the result, and a scope or a
document that meets a line nothing explains skips the line and goes on with the next one.

Items may refer to each other in a circle, so the depth of attempts inside each other is limited. The
limit decreases with every attempt inside another one; at one depth, the elements of a sequence and the
alternatives of a pattern are tried in order, and whatever is repeated has to come nearer to the end of
the text.
-/

namespace ShaderAssist

/-- What matching depends on. -/
structure Matcher where
  grammar : CompiledGrammar
  document : Document
  depthLimit : Nat

namespace Matcher

/-- Offset of the first word at or after an offset. -/
def skip (m : Matcher) (offset : Nat) (crossLine : Bool) : Nat :=
  match m.document.sliceAt offset with
  | some s => offset + triviaLength crossLine s.chars
  | none => offset

theorem le_skip (m : Matcher) (offset : Nat) (crossLine : Bool) :
    offset ≤ m.skip offset crossLine := by
  unfold skip
  split <;> omega

/-! ### Words -/

/-- A failed word. It covers the blanks on its line, so that a cursor may stand in it. -/
def unmatchedLeaf (m : Matcher) (id : ItemId) (offset : Nat) : Match :=
  .leaf id .unmatched offset (m.skip offset false)

/-- Blanks and comments, of which there has to be one. -/
def matchBlank (m : Matcher) (id : ItemId) (crossLine : Bool) (offset : Nat) : Match :=
  let stop := m.skip offset crossLine
  if offset < stop then .leaf id .matched offset stop else .leaf id .unmatched offset offset

/-- What `length?` finds at the first word. -/
def matchWord (m : Matcher) (id : ItemId) (length? : Slice → Option Nat) (crossLine : Bool)
    (offset : Nat) : Match :=
  let start := m.skip offset crossLine
  match (m.document.sliceAt start).bind length? with
  | some length => .leaf id .matched start (start + length)
  | none => m.unmatchedLeaf id offset

/-! ### Sequences and alternatives -/

/-- A way of matching items at offsets. -/
abbrev Attempt : Type :=
  ItemId → Nat → Traced Match

/-- The successive matches of an item from an offset on, as long as each of them advances. No match
ends past `size`, the end of the text. -/
def matchMany (attempt : Attempt) (size : Nat) (item : ItemId) (offset : Nat) :
    Traced (List Match) := do
  let first ← attempt item offset
  if !first.isMatched then pure []
  else if offset < first.stop ∧ first.stop ≤ size then
    let rest ← matchMany attempt size item first.stop
    pure (first :: rest)
  else pure [first]
termination_by size - offset

/-- The matches of the elements of a sequence in order, and whether all of them matched. If one did
not, it is the last of the results. -/
def matchElements (attempt : Attempt) (size : Nat) :
    List SequenceElement → Nat → Traced (List Match × Bool)
  | [], _ => pure ([], true)
  | ⟨item, .one⟩ :: elements, offset => do
    let first ← attempt item offset
    if first.isMatched then
      let (rest, complete) ← matchElements attempt size elements first.stop
      pure (first :: rest, complete)
    else pure ([first], false)
  | ⟨item, .optional⟩ :: elements, offset => do
    let first ← attempt item offset
    if first.isMatched then
      let (rest, complete) ← matchElements attempt size elements first.stop
      pure (first :: rest, complete)
    else matchElements attempt size elements offset
  | ⟨item, .many⟩ :: elements, offset => do
    let first ← matchMany attempt size item offset
    let (rest, complete) ← matchElements attempt size elements
      ((first.getLast?.map Match.stop).getD offset)
    pure (first ++ rest, complete)

/-- A sequence. It has to have at least one match, even if all its elements may be missing. -/
def matchSequence (attempt : Attempt) (size : Nat) (id : ItemId) (elements : List SequenceElement)
    (offset : Nat) : Traced Match := do
  let (children, complete) ← matchElements attempt size elements offset
  if children.isEmpty then pure (.leaf id .unmatched offset offset)
  else pure (.ofChildren (some id) (if complete then .matched else .unmatched) offset children)

/-- The first acceptable result of some items at an offset, or else all the results. -/
def firstAccepted (accept : Match → Bool) (attempt : Attempt) (offset : Nat) :
    List ItemId → Traced (Except (List Match) Match)
  | [] => pure (.error [])
  | item :: items => do
    let result ← attempt item offset
    if accept result then pure (.ok result)
    else match ← firstAccepted accept attempt offset items with
      | .ok later => pure (.ok later)
      | .error attempts => pure (.error (result :: attempts))

/-- A pattern: its first alternative that matches. -/
def matchAlternation (attempt : Attempt) (id : ItemId) (pattern : PatternId)
    (alternatives : List ItemId) (offset : Nat) : Traced Match := do
  let result ← firstAccepted Match.isMatched attempt offset alternatives
  let m := match result with
    | .ok alternative => Match.ofChildren (some id) .matched offset [alternative]
    | .error attempts => Match.ofChildren (some id) .unmatchedPattern offset attempts
  pure (m.withOrigin (.pattern pattern))

/-! ### Lines that nothing explains -/

/-- The first pattern of a body that matches and advances, or else all the attempts. -/
def matchBody (attempt : Attempt) (body : List ItemId) (offset : Nat) :
    Traced (Except (List Match) Match) :=
  firstAccepted (fun m => m.isMatched && offset < m.stop) attempt offset body

/-- Skips the line on which the furthest of some failed attempts ended. Answers with the node of the
skipped line, and with the offset of the next line if there is one. -/
def skipLine (m : Matcher) (offset : Nat) (attempts : List Match) : Match × Option Nat :=
  let furthest := Match.furthest offset attempts
  let line := (m.document.positionAt furthest).line
  let stop := (m.document.lineEnd? line).getD m.document.size
  let next := if line + 1 < m.document.lineCount then
    (m.document.offsetAt ⟨line + 1, 0⟩).toOption else none
  ((Match.ofChildren none .unmatchedText offset attempts).withRange offset (max stop furthest),
    next.filter (offset < ·))

/-! ### Scopes and documents -/

/-- The content of a scope from an offset on, and whether it ends with the closing delimiter. -/
def matchRegion (m : Matcher) (attempt : Attempt) (closing : ItemId) (body : List ItemId)
    (offset : Nat) : Traced (List Match × Bool) := do
  let cursor := m.skip offset true
  match ← matchBody attempt body cursor with
  | .ok result =>
    if offset < result.stop ∧ result.stop ≤ m.document.size then
      let (rest, closed) ← matchRegion m attempt closing body result.stop
      pure (result :: rest, closed)
    else pure ([result], false)
  | .error attempts =>
    let last ← attempt closing cursor
    if last.isMatched then pure ([last], true)
    else
      let (line, next) := m.skipLine cursor attempts
      match next with
      | none => pure ([line], false)
      | some next =>
        if offset < next ∧ next ≤ m.document.size then
          let (rest, closed) ← matchRegion m attempt closing body next
          pure (line :: rest, closed)
        else pure ([line], false)
termination_by m.document.size - offset

/-- A scope. -/
def matchScope (m : Matcher) (attempt : Attempt) (id : ItemId) (scope : ScopeId)
    (opening closing : ItemId) (body : List ItemId) (offset : Nat) : Traced Match := do
  let first ← attempt opening (m.skip offset true)
  if !first.isMatched then
    pure ((Match.ofChildren (some id) .unmatched offset [first]).withOrigin (.scope scope))
  else
    let (rest, closed) ← m.matchRegion attempt closing body first.stop
    if !closed then Traced.report (.unterminatedScope offset)
    pure ((Match.ofChildren (some id) (if closed then .matched else .unmatched) offset
      (first :: rest)).withOrigin (.scope scope))

/-- The content of a document from an offset on, and whether no line of it was skipped. -/
def matchLines (m : Matcher) (attempt : Attempt) (body : List ItemId) (offset : Nat) :
    Traced (List Match × Bool) := do
  let cursor := m.skip offset true
  if m.document.size ≤ cursor then pure ([], true)
  else match ← matchBody attempt body cursor with
    | .ok result =>
      if offset < result.stop ∧ result.stop ≤ m.document.size then
        let (rest, complete) ← matchLines m attempt body result.stop
        pure (result :: rest, complete)
      else pure ([result], true)
    | .error attempts =>
      let (line, next) := m.skipLine cursor attempts
      match next with
      | none => pure ([line], false)
      | some next =>
        if offset < next ∧ next ≤ m.document.size then
          let (rest, _) ← matchLines m attempt body next
          pure (line :: rest, false)
        else pure ([line], false)
termination_by m.document.size - offset

/-- A whole document from an offset on. Its node ends where the text does. -/
def matchGrammar (m : Matcher) (attempt : Attempt) (id : ItemId) (body : List ItemId)
    (offset : Nat) : Traced Match := do
  let (children, complete) ← m.matchLines attempt body offset
  let result := Match.ofChildren (some id) (if complete then .matched else .unmatched) offset children
  pure ((result.withRange offset m.document.size).withOrigin .grammar)

/-! ### Items -/

/-- One item at an offset, with `attempt` for the items it refers to. -/
def matchStep (m : Matcher) (attempt : Attempt) (id : ItemId) (item : Item) (offset : Nat) :
    Traced Match :=
  match item with
  | .blank crossLine => pure (m.matchBlank id crossLine offset)
  | .text keyword crossLine => pure (m.matchWord id keyword.matchLength? crossLine offset)
  | .token _ _ finder crossLine => pure (m.matchWord id finder.matchLength? crossLine offset)
  | .sequence elements => matchSequence attempt m.document.size id elements offset
  | .alternation pattern alternatives => matchAlternation attempt id pattern alternatives offset
  | .named name inner => do
    let result ← attempt inner offset
    pure (result.withName name)
  | .scope scope opening closing body => m.matchScope attempt id scope opening closing body offset
  | .grammar body => m.matchGrammar attempt id body offset

/-- The item with a number at an offset, with at most `depth` attempts inside each other. -/
def matchAt (m : Matcher) : Nat → ItemId → Nat → Traced Match
  | depth, id, offset =>
    if (m.document.sliceAt offset).isNone then do
      Traced.report (.invalidOffset id offset)
      let offset := min offset m.document.size
      pure (.leaf id .unmatched offset offset)
    else match depth with
      | 0 => do
        Traced.report (.depthLimit m.depthLimit offset)
        pure (.leaf id .unmatched offset offset)
      | depth + 1 =>
        match m.grammar.item? id with
        | some item => m.matchStep (m.matchAt depth) id item offset
        | none => pure (.leaf id .unmatched offset offset)

/-- **Matching an item at an offset.** -/
def matchItem (m : Matcher) (id : ItemId) (offset : Nat) : Traced Match :=
  m.matchAt m.depthLimit id offset

/-- **Matching the whole document.** -/
def matchDocument (m : Matcher) : Traced Match :=
  m.matchItem CompiledGrammar.root 0

end Matcher

end ShaderAssist
