import ShaderAssist.Regex.Basic
import ShaderAssist.Regex.ByteRange
import Std.Data.TreeMap

/-!
# Size of expressions

An expression is used only if automata for it fit into a bounded memory: one that reads the bytes of
a text forward and keeps the ends of numbered groups, and one that reads them backward. `footprint`
counts the states of such an automaton and the memory of their links, without building it; a counted
repetition stands for as many copies as it counts. The memory of a state is fixed, and a state that
reads bytes or branches needs more for every link.

A set of characters beyond ASCII is an automaton over bytes of its own, in which equal states are
shared. The states that can be shared are looked up in a table with a fixed number of places, where a
new entry displaces the one before it.
-/

namespace ShaderAssist

/-- The order in which an automaton reads the bytes of a text. -/
inductive Direction where
  | forward
  | backward
deriving DecidableEq, Repr, Inhabited

/-- Number of states of an automaton, and the memory of their links. -/
structure Footprint where
  states : Nat
  linkBytes : Nat
deriving DecidableEq, Repr, Inhabited

namespace Footprint

/-- Memory of a state without its links. -/
def stateBytes : Nat :=
  32

/-- Memory of a link of a state that branches. -/
def branchBytes : Nat :=
  4

/-- Memory of a link of a state that reads bytes in several ranges. -/
def readBytes : Nat :=
  8

/-- The largest memory of an automaton. -/
def maxBytes : Nat :=
  10 * 1024 * 1024

/-- The memory of an automaton. -/
def bytes (f : Footprint) : Nat :=
  f.states * stateBytes + f.linkBytes

/-- The automaton with more states. -/
def addStates (f : Footprint) (n : Nat) : Footprint :=
  { f with states := f.states + n }

/-- The automaton with a state that branches to `n` others. -/
def addBranching (f : Footprint) (n : Nat) : Footprint :=
  ⟨f.states + 1, f.linkBytes + n * branchBytes⟩

/-- The automaton with a state that reads bytes in `n` ranges. -/
def addReading (f : Footprint) (n : Nat) : Footprint :=
  ⟨f.states + 1, f.linkBytes + n * readBytes⟩

/-- The automaton after `n` steps, or after as many as it takes to become too large. -/
def grow (step : Footprint → Footprint) : Nat → Footprint → Footprint
  | 0, f => f
  | n + 1, f => if maxBytes < f.bytes then f else grow step n (step f)

end Footprint

/-! ### Shared states -/

/-- A table of states with a fixed number of places. Each place holds the description of a state and
its number. -/
structure StateTable where
  places : Nat
  entries : Std.TreeMap Nat (List Nat × Nat) := ∅

namespace StateTable

/-- The place of a description. -/
def placeOf (t : StateTable) (key : List Nat) : Nat :=
  let hash := key.foldl (fun h n => (h ^^^ UInt64.ofNat n) * 1099511628211) 14695981039346656037
  (hash % UInt64.ofNat t.places).toNat

/-- The number of a state with a description. -/
def find? (t : StateTable) (key : List Nat) : Option Nat :=
  match t.entries[t.placeOf key]? with
  | some (found, number) => if found = key then some number else none
  | none => none

/-- The table with a state, in place of the one that shares its place. -/
def insert (t : StateTable) (key : List Nat) (number : Nat) : StateTable :=
  { t with entries := t.entries.insert (t.placeOf key) (key, number) }

end StateTable

/-- An automaton of a set of characters while its states are added. -/
structure SetAutomaton where
  footprint : Footprint
  table : StateTable

namespace SetAutomaton

/-- The sequences that follow each first range; sequences side by side with the same first range
belong together. -/
def byFirst : List (List ByteRange) → List (ByteRange × List (List ByteRange))
  | [] => []
  | [] :: rest => byFirst rest
  | (b :: tail) :: rest =>
    match byFirst rest with
    | (b', tails) :: groups =>
      if b = b' then (b, tail :: tails) :: groups else (b, [tail]) :: (b', tails) :: groups
    | [] => [(b, [tail])]

/-- The state that reads some sequences forward, with an equal one shared. `accept` is the state behind
the last byte, and `n` bounds the length of the sequences. -/
def readForward (accept : Nat) :
    Nat → List (List ByteRange) → SetAutomaton → Nat × SetAutomaton
  | 0, _, a => (accept, a)
  | n + 1, sequences, a =>
    match byFirst sequences with
    | [] => (accept, a)
    | groups =>
      let (key, a) := groups.foldl
        (fun (key, a) (b, tails) =>
          let (next, a) := readForward accept n tails a
          (next :: b.hi :: b.lo :: key, a))
        ([], a)
      let key := key.reverse
      match a.table.find? key with
      | some number => (number, a)
      | none =>
        let number := a.footprint.states
        (number, ⟨a.footprint.addReading groups.length, a.table.insert key number⟩)

/-- The automaton with the states that read a sequence backward, from its first byte to its last, with
equal ones shared. -/
def readBackward (accept : Nat) (a : SetAutomaton) (sequence : List ByteRange) : SetAutomaton :=
  (sequence.foldl
    (fun (next, a) b =>
      let key := [next, b.lo, b.hi]
      match a.table.find? key with
      | some number => (number, a)
      | none =>
        let number := a.footprint.states
        (number, (⟨a.footprint.addStates 1, a.table.insert key number⟩ : SetAutomaton)))
    (accept, a)).2

end SetAutomaton

/-- The automaton with the states of a set of characters. -/
def Footprint.addSet (f : Footprint) (direction : Direction) (s : CharSet) : Footprint :=
  if s.isAscii then (f.addStates 1).addReading s.ranges.length
  else match direction with
    | .forward =>
      let accept := f.states
      (SetAutomaton.readForward accept 4 s.byteSequences ⟨f.addStates 1, ⟨10000, ∅⟩⟩).2.footprint
    | .backward =>
      let sequences := s.byteSequences
      let f := f.addBranching sequences.length
      let accept := f.states
      (sequences.foldl (SetAutomaton.readBackward accept) ⟨f.addStates 1, ⟨1000, ∅⟩⟩).footprint

/-! ### Literal texts as branches -/

/-- The bytes of a text in the order of a direction. -/
def directedBytes (direction : Direction) (text : List Char) : List Nat :=
  let bytes := text.flatMap fun c => utf8Bytes c.toNat
  match direction with
  | .forward => bytes
  | .backward => bytes.reverse

/-- Texts up to each empty one, and those behind the last. -/
def splitAtEmpty : List (List Nat) → List (List (List Nat))
  | [] => [[]]
  | [] :: rest => [] :: splitAtEmpty rest
  | text :: rest =>
    match splitAtEmpty rest with
    | chunk :: chunks => (text :: chunk) :: chunks
    | [] => [[text]]

/-- The automaton with the states of some texts as branches. Texts that start alike share states, as
far as no text that ends there stands between them. `n` bounds the length of the texts. -/
def Footprint.addTexts : Nat → List (List Nat) → Footprint → Footprint
  | 0, _, f => f
  | n + 1, texts, f =>
    let leading := texts.takeWhile (·.isEmpty)
    let chunks := splitAtEmpty (leading.take 1 ++ texts.dropWhile (·.isEmpty))
    let f := chunks.foldl
      (fun f chunk =>
        let heads := (chunk.filterMap (·.head?)).eraseDups
        let f := heads.foldl
          (fun f head =>
            let tails := (chunk.filter (·.head? == some head)).map (·.tail)
            if tails.all (·.isEmpty) then f else addTexts n tails f)
          f
        match heads with
        | [] => f
        | [_] => f.addStates 1
        | _ => f.addReading heads.length)
      f
    f.addBranching ((chunks.filter (!·.isEmpty)).length + (chunks.length - 1))

/-! ### Expressions -/

namespace Regex

/-- The text that an expression consists of. -/
def text? : Regex → Option (List Char)
  | literal text => some text
  | _ => none

/-- The automaton after the states of a branch, if the expression is one: the second branch brings the
state that branches and the state where the branches meet. -/
def meetBranch : Option Nat → Footprint → Footprint
  | none, f | some 0, f => f
  | some 1, f => (f.addBranching 2).addStates 1
  | some _, f => { f with linkBytes := f.linkBytes + Footprint.branchBytes }

/-- The automaton with the states of an expression. `branch` tells which branch of an alternation the
expression is, if it is one. -/
def measure (direction : Direction) : Regex → Option Nat → Footprint → Footprint
  | alt r s, branch, f =>
    match branch, (alt r s).branches.mapM text? with
    | none, some texts =>
      let texts := texts.map (directedBytes direction)
      let longest := texts.foldl (fun n text => max n text.length) 0
      (f.addStates 1).addTexts (longest + 1) texts
    | _, _ =>
      let k := branch.getD 0
      s.measure direction (some (k + 1)) (r.measure direction (some k) f)
  | empty, branch, f | assert _, branch, f => meetBranch branch (f.addStates 1)
  | literal text, branch, f =>
    meetBranch branch (f.addStates (directedBytes direction text).length)
  | set s, branch, f => meetBranch branch (f.addSet direction s)
  | group _ r, branch, f =>
    meetBranch branch <| match direction with
      | .forward => (r.measure direction none (f.addStates 1)).addStates 1
      | .backward => r.measure direction none f
  | seq r s, branch, f =>
    meetBranch branch <| match direction with
      | .forward => s.measure direction none (r.measure direction none f)
      | .backward => r.measure direction none (s.measure direction none f)
  | rep least most _ r, branch, f =>
    let copy := r.measure direction none
    meetBranch branch <| match least, most with
      | 0, some 1 => (copy (f.addBranching 2)).addStates 1
      | least, some most =>
        let f := if least = 0 then f.addStates 1 else f.grow copy least
        if least = most then f
        else (f.addStates 1).grow (fun f => copy (f.addBranching 2)) (most - least)
      | 0, none =>
        if r.consumes then copy (f.addBranching 2)
        else (((copy f).addBranching 2).addBranching 2).addStates 1
      | least, none => (f.grow copy least).addBranching 2

/-- **The memory of an automaton for an expression.** It starts with a state that reads any bytes before
the match, unless the match is known to start at the end of the text that is read first. -/
def footprint (direction : Direction) (r : Regex) : Footprint :=
  let anchored := match direction with
    | .forward => r.startsAtTextStart
    | .backward => r.endsAtTextEnd
  let f : Footprint := ⟨0, 0⟩
  let f := if anchored then f.addStates 1 else ((f.addBranching 2).addStates 1).addReading 1
  let f := match direction with
    | .forward => (r.measure direction none (f.addStates 1)).addStates 1
    | .backward => r.measure direction none f
  f.addStates 1

/-- Whether the automata of an expression are small enough. -/
def fits (r : Regex) : Bool :=
  (r.footprint .forward).bytes ≤ Footprint.maxBytes &&
    (r.footprint .backward).bytes ≤ Footprint.maxBytes

end Regex

end ShaderAssist
