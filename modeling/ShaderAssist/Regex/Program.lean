import ShaderAssist.Regex.Basic

/-!
# Programs

An expression is laid out as a program of numbered instructions. Most instructions name the one that
is next; a fork names two, the one to be preferred first. `Regex.layOut` adds the instructions of an
expression in front of a given one, the last piece first, and answers with the number of the first.

A repetition without an upper bound is a loop through one fork. If the repeated expression may match
the empty text, a second fork of the same kind stands before the loop, so that the loop can be passed
by without its own fork being met.
-/

namespace ShaderAssist

/-- A step of a program. -/
inductive Instruction where
  /-- Reads one character of a set. -/
  | take (s : CharSet) (next : Nat)
  /-- Goes on where a condition holds. -/
  | check (a : Assertion) (next : Nat)
  /-- Goes on in two ways, of which the first is preferred. -/
  | fork (first second : Nat)
  /-- The end of a match. -/
  | accept
deriving DecidableEq, Repr, Inhabited

/-- A fork that prefers one more round of a repetition, or the end of it if it is lazy. -/
def Instruction.again (greedy : Bool) (more stop : Nat) : Instruction :=
  if greedy then fork more stop else fork stop more

/-- Instructions, with the number of the first to be followed. -/
structure Program where
  code : Array Instruction
  start : Nat
deriving DecidableEq, Repr, Inhabited

namespace Program

/-- The program with one more instruction, from which it starts. -/
def push : Program → Instruction → Program
  | ⟨code, _⟩, i =>
    let entry := code.size
    ⟨code.push i, entry⟩

/-- A program that accepts at once. -/
def accepting : Program :=
  ⟨#[.accept], 0⟩

/-- The program with an instruction that reads one character of a set, from which it starts. -/
def pushTake : Program → CharSet → Program
  | ⟨code, start⟩, s => push ⟨code, start⟩ (.take s start)

/-- The program with an instruction that asks for a condition, from which it starts. -/
def pushCheck : Program → Assertion → Program
  | ⟨code, start⟩, a => push ⟨code, start⟩ (.check a start)

/-- The program with a fork between a round of a repetition, where it starts, and the end of the
repetition. The new program starts with the fork. -/
def pushAgain : Program → Bool → Nat → Program
  | ⟨code, start⟩, greedy, stop => push ⟨code, start⟩ (.again greedy start stop)

/-- A round of `body` that comes back to the fork behind it, which leads on to the program. The new
program starts with the round. -/
def loop (greedy : Bool) (body : Program → Program) : Program → Program
  | ⟨code, stop⟩ =>
    let turn := code.size
    match body (push ⟨code, stop⟩ .accept) with
    | ⟨code, start⟩ => ⟨code.setIfInBounds turn (.again greedy start stop), start⟩

/-- A loop that can be passed by. If every round consumes something, the fork of the loop is where it
starts; otherwise a fork of its own is. -/
def optionalLoop (greedy consuming : Bool) (body : Program → Program) : Program → Program
  | ⟨code, stop⟩ =>
    let turn := code.size
    match loop greedy body ⟨code, stop⟩ with
    | ⟨code, start⟩ =>
      if consuming then ⟨code, turn⟩ else pushAgain ⟨code, start⟩ greedy stop

/-- Up to `n` rounds of `body`, each of which can be left out with those after it. -/
def upTo (greedy : Bool) (n : Nat) (body : Program → Program) : Program → Program
  | ⟨code, stop⟩ => Nat.repeat (fun p => (body p).pushAgain greedy stop) n ⟨code, stop⟩

/-- Two ways to the program, the first of them preferred. -/
def either (first second : Program → Program) : Program → Program
  | ⟨code, stop⟩ =>
    match second ⟨code, stop⟩ with
    | ⟨code, start⟩ =>
      match first ⟨code, stop⟩ with
      | ⟨code, start'⟩ => push ⟨code, start'⟩ (.fork start' start)

end Program

namespace Regex

/-- Adds the instructions of an expression in front of a program. -/
def layOut : Regex → Program → Program
  | empty, p => p
  | literal text, p => text.foldr (fun c p => p.pushTake (.single c)) p
  | set s, p => p.pushTake s
  | assert a, p => p.pushCheck a
  | group _ r, p => r.layOut p
  | seq r s, p => r.layOut (s.layOut p)
  | alt r s, p => p.either r.layOut s.layOut
  | rep least (some most) greedy r, p =>
    Nat.repeat r.layOut least (p.upTo greedy (most - least) r.layOut)
  | rep 0 none greedy r, p => p.optionalLoop greedy r.consumes r.layOut
  | rep (n + 1) none greedy r, p => Nat.repeat r.layOut n (p.loop greedy r.layOut)

/-- **The program of an expression.** -/
def program (r : Regex) : Program :=
  r.layOut .accepting

end Regex

end ShaderAssist
